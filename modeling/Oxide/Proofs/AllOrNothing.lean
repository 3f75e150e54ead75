/-
This file says what the commands leave behind when they are given several inputs, on every host. All
of them take one input after another and stop at the first one that fails. The command that compiles
keeps its results until the end, so that it asks to put out all of them or none. What is there when
the host breaks off is the beginning of all. The commands that list things have printed the results
of the inputs before the one that fails.
-/

import Mathlib.Data.List.Forall2
import Oxide.Command
import Oxide.Proofs.ReadResults

namespace Oxide

open Text (Bytes)

/-! ### Sessions one part after the other -/

instance : LawfulMonad Session := by
  refine LawfulMonad.mk' Session ?_ (fun _ _ => rfl) ?_
  · intro α session
    induction session with
    | done result => rfl
    | ask request next inductionHypothesis =>
      exact congrArg (Session.ask request) (funext inductionHypothesis)
  · intro α β γ session further last
    induction session with
    | done result => rfl
    | ask request next inductionHypothesis =>
      exact congrArg (Session.ask request) (funext inductionHypothesis)

/-- A session is held up to a point and from there on. -/
theorem Session.hold_bind {α β : Type} {m : Type → Type} [Monad m] [LawfulMonad m]
    (answer : {Answer : Type} → Request Answer → m Answer) (session : Session α)
    (further : α → Session β) :
    (session >>= further).hold answer =
      session.hold answer >>= fun result => (further result).hold answer := by
  induction session with
  | done result => exact (pure_bind result fun result => (further result).hold answer).symm
  | ask request next inductionHypothesis =>
    change answer request >>= (fun given => (next given >>= further).hold answer) =
      (answer request >>= fun given => (next given).hold answer) >>= _
    rw [bind_assoc]
    exact bind_congr inductionHypothesis

namespace Host

variable (host : Host) {α β : Type}

/-- What is done first leaves its result and its effects to what is done next. -/
theorem perform_bind (session : Session α) (further : α → Session β) (effects : Effects) :
    host.perform (session >>= further) effects =
      host.perform (further (host.perform session effects).1) (host.perform session effects).2 := by
  unfold perform
  rw [Session.hold_bind]
  rfl

/-- Changing a result has no effects. -/
theorem perform_map (change : α → β) (session : Session α) (effects : Effects) :
    host.perform (change <$> session) effects =
      (change (host.perform session effects).1, (host.perform session effects).2) :=
  host.perform_bind session _ effects

/-- What a task gives on a host, and what is left behind after it. -/
def attempt (task : Command.Task α) (effects : Effects) : Attempt Command.Fault α × Effects :=
  host.perform task.run effects

@[simp] theorem attempt_pure (result : α) (effects : Effects) :
    host.attempt (pure result) effects = (.ok result, effects) := rfl

@[simp] theorem attempt_ofAttempt (given : Attempt Command.Fault α) (effects : Effects) :
    host.attempt (Command.Task.ofAttempt given) effects = (given, effects) := rfl

@[simp] theorem attempt_ofStep (step : Program.Step α) (effects : Effects) :
    host.attempt (Command.Task.ofStep step) effects =
      (Attempt.widen .program step, effects) := rfl

@[simp] theorem attempt_request {Answer : Type} (request : Request Answer) (effects : Effects) :
    host.attempt (Command.Task.request request) effects =
      (.ok ((host.answer request).run effects).1, ((host.answer request).run effects).2) := rfl

variable {host}

/-- A task goes on with the result, from the effects so far. -/
theorem attempt_bind_of_ok {task : Command.Task α} {effects after : Effects} {result : α}
    (first : host.attempt task effects = (.ok result, after))
    (further : α → Command.Task β) :
    host.attempt (task >>= further) effects = host.attempt (further result) after := by
  unfold attempt at first ⊢
  rw [ExceptT.run_bind, perform_bind, first]

/-- A task that fails is not gone on with. -/
theorem attempt_bind_of_error {task : Command.Task α} {effects after : Effects}
    {failure : Failure Command.Fault} (first : host.attempt task effects = (.error failure, after))
    (further : α → Command.Task β) :
    host.attempt (task >>= further) effects = (.error failure, after) := by
  unfold attempt at first ⊢
  rw [ExceptT.run_bind, perform_bind, first]
  rfl

theorem attempt_inside (place : String) (task : Command.Task α) (effects : Effects) :
    host.attempt (task.inside place) effects =
      (Attempt.inside place (host.attempt task effects).1, (host.attempt task effects).2) :=
  perform_map host _ _ _

end Host

namespace Command

variable (host : Host)

/-! ### Results of single inputs -/

/-- What a host answers for a file, as an input. -/
def fileInput (name : String) : Attempt Fault Bytes :=
  match host.file name with
  | .ok text => .ok text
  | .error fault => .error ⟨["read " ++ name], .program (.file fault)⟩

/-- What a host answers for the standard input, as an input. -/
def standardInput : Attempt Fault Bytes :=
  if host.terminal then .error ⟨[], .terminal⟩
  else
    match host.input with
    | .ok text => .ok text
    | .error fault => .error ⟨["read stdin"], .program (.file fault)⟩

/-- The result of a step for an input with its name. -/
def resultOf (step : String → Bytes → Program.Step Bytes) (name : String)
    (input : Attempt Fault Bytes) : Attempt Fault Bytes := do
  Attempt.widen .program (step name (← input))

/-- The results of a step for each input, be it the files or, without any, the standard input. -/
def results (step : String → Bytes → Program.Step Bytes) (names : List String) :
    List (Attempt Fault Bytes) :=
  if names.isEmpty then [resultOf step "<stdin>" (standardInput host)]
  else names.map fun name => resultOf step name (fileInput host name)

theorem resultOf_ok (step : String → Bytes → Program.Step Bytes) (name : String) (text : Bytes) :
    resultOf step name (.ok text) = Attempt.widen .program (step name text) := rfl

variable {host}

/-- Reading a file has no effects. -/
theorem attempt_readFile (name : String) (effects : Effects) :
    host.attempt (readFile name) effects = (fileInput host name, effects) := by
  unfold readFile fileInput
  rw [Host.attempt_bind_of_ok (host.attempt_request _ _)]
  change (Attempt.widen _ (Attempt.inside _ (Program.fileContent (host.file name))), _) = _
  cases host.file name <;> rfl

theorem attempt_readInput (effects : Effects) :
    host.attempt readInput effects = (standardInput host, effects) := by
  unfold readInput standardInput
  rw [Host.attempt_bind_of_ok (host.attempt_request _ _)]
  change host.attempt (if host.terminal then _ else _) effects = _
  cases host.terminal with
  | true => rfl
  | false =>
    simp only [Bool.false_eq_true, if_false]
    rw [Host.attempt_bind_of_ok (host.attempt_request _ _)]
    change (Attempt.widen _ (Attempt.inside _ (Program.fileContent host.input)), _) = _
    cases host.input <;> rfl

/-- An input of a task as a host gives it: the reading leaves nothing behind. -/
def Gives (host : Host) (step : String → Bytes → Program.Step Bytes)
    (input : String × Task Bytes) (result : Attempt Fault Bytes) : Prop :=
  ∃ given : Attempt Fault Bytes, result = resultOf step input.1 given ∧
    ∀ effects, host.attempt input.2 effects = (given, effects)

/-- Each input gives its own result, which depends on nothing that happened before. -/
theorem inputs_give_results (host : Host) (step : String → Bytes → Program.Step Bytes)
    (names : List String) :
    List.Forall₂ (Gives host step) (inputs names) (results host step names) := by
  unfold inputs results
  split
  · exact .cons ⟨_, rfl, attempt_readInput⟩ .nil
  · rw [List.forall₂_map_left_iff, List.forall₂_map_right_iff, List.forall₂_same]
    exact fun name _ => ⟨_, rfl, attempt_readFile name⟩

/-- Reading an input and taking a step with it gives what the step gives for the input. -/
theorem Gives.attempt {step : String → Bytes → Program.Step Bytes} {input : String × Task Bytes}
    {result : Attempt Fault Bytes} (gives : Gives host step input result) (effects : Effects) :
    host.attempt (do Task.ofStep (step input.1 (← input.2))) effects = (result, effects) := by
  obtain ⟨given, rfl, reads⟩ := gives
  cases given with
  | ok text => rw [Host.attempt_bind_of_ok (reads effects)]; rfl
  | error failure => rw [Host.attempt_bind_of_error (reads effects)]; rfl

/-! ### One input after another -/

section

variable {α : Type} {action : String → Bytes → Task α} {input : String × Task Bytes}
  {effects after : Effects}

/-- The inputs are taken one after another. -/
theorem runEach_cons (action : String → Bytes → Task α) (input : String × Task Bytes)
    (rest : List (String × Task Bytes)) :
    runEach action (input :: rest) = do
      let result ← (do action input.1 (← input.2))
      return result :: (← runEach action rest) := by
  simp only [runEach, bind_assoc]

/-- The first failure ends the run. -/
theorem attempt_runEach_of_error {failure : Failure Fault}
    (fails : host.attempt (do action input.1 (← input.2)) effects = (.error failure, after))
    (rest : List (String × Task Bytes)) :
    host.attempt (runEach action (input :: rest)) effects = (.error failure, after) := by
  rw [runEach_cons, Host.attempt_bind_of_error fails]

theorem attempt_runEach_of_ok {result : α}
    (gives : host.attempt (do action input.1 (← input.2)) effects = (.ok result, after))
    (rest : List (String × Task Bytes)) :
    host.attempt (runEach action (input :: rest)) effects =
      ((result :: ·) <$> (host.attempt (runEach action rest) after).1,
        (host.attempt (runEach action rest) after).2) := by
  rw [runEach_cons, Host.attempt_bind_of_ok gives]
  cases later : host.attempt (runEach action rest) after with
  | mk given left =>
    cases given with
    | ok results => rw [Host.attempt_bind_of_ok later]; rfl
    | error failure => rw [Host.attempt_bind_of_error later]; rfl

end

section

variable {step : String → Bytes → Program.Step Bytes} {items : List (String × Task Bytes)}
  {given : List (Attempt Fault Bytes)}

/-- Taking a step with one input after another gives the results of all of them, or the failure of
the first one that fails, and leaves nothing behind. -/
theorem attempt_runEach_cases (gives : List.Forall₂ (Gives host step) items given)
    (effects : Effects) :
    (∃ outputs : List Bytes, given = outputs.map .ok ∧
      host.attempt (runEach (fun name text => Task.ofStep (step name text)) items) effects =
        (.ok outputs, effects)) ∨
    ∃ (outputs : List Bytes) (failure : Failure Fault) (later : List (Attempt Fault Bytes)),
      given = outputs.map .ok ++ .error failure :: later ∧
        host.attempt (runEach (fun name text => Task.ofStep (step name text)) items) effects =
          (.error failure, effects) := by
  induction gives with
  | nil => exact .inl ⟨[], rfl, rfl⟩
  | @cons input result rest later here _ inductionHypothesis =>
    have first := here.attempt effects
    cases result with
    | error failure =>
      exact .inr ⟨[], failure, later, rfl, attempt_runEach_of_error first rest⟩
    | ok output =>
      rcases inductionHypothesis with ⟨outputs, rfl, run⟩ | ⟨outputs, failure, behind, rfl, run⟩
      · exact .inl ⟨output :: outputs, rfl, by rw [attempt_runEach_of_ok first, run]; rfl⟩
      · exact .inr ⟨output :: outputs, failure, behind, rfl,
          by rw [attempt_runEach_of_ok first, run]; rfl⟩

end

/-! ### Printing as it goes -/

/-- What arrives of things that are printed one after the other, when so many were printed before. -/
def arrivals (host : Host) (before : Nat) (outputs : List Bytes) : List Bytes :=
  (outputs.zipIdx before).map fun (output, number) => Shortfall.cut (host.printing number) output

/-- Whether a host takes so many things that are printed as a whole, after the given count. -/
def Takes (host : Host) (before count : Nat) : Prop :=
  ∀ number < count, host.printing (before + number) = none

theorem arrivals_cons (before : Nat) (output : Bytes) (outputs : List Bytes) :
    arrivals host before (output :: outputs) =
      Shortfall.cut (host.printing before) output :: arrivals host (before + 1) outputs := rfl

/-- Where everything is taken as a whole, it arrives as it is. -/
theorem arrivals_of_takes {before : Nat} {outputs : List Bytes}
    (taken : Takes host before outputs.length) : arrivals host before outputs = outputs := by
  induction outputs generalizing before with
  | nil => rfl
  | cons output outputs inductionHypothesis =>
    have whole : host.printing before = none := taken 0 (Nat.succ_pos _)
    rw [arrivals_cons, whole, inductionHypothesis]
    · rfl
    · intro number small
      rw [Nat.add_right_comm]
      exact taken (number + 1) (Nat.succ_lt_succ small)

theorem takes_zero (before : Nat) : Takes host before 0 :=
  fun _ small => absurd small (Nat.not_lt_zero _)

theorem takes_succ {before count : Nat} (first : host.printing before = none)
    (others : Takes host (before + 1) count) : Takes host before (count + 1) := by
  intro number small
  cases number with
  | zero => exact first
  | succ number =>
    rw [← Nat.add_assoc, Nat.add_right_comm]
    exact others number (Nat.lt_of_succ_lt_succ small)

/-- What is printed, and how it ends, when results are printed as they come: those before the first
failure are printed. A host that breaks off is an end as well, if that is heeded. -/
inductive Listed (host : Host) (heeds : Bool) (before : Nat) :
    List (Attempt Fault Bytes) → List Bytes → Option (Failure Fault) → Prop where
  | finished (outputs : List Bytes) (taken : heeds → Takes host before outputs.length) :
      Listed host heeds before (outputs.map .ok) (arrivals host before outputs) none
  | stopped (outputs : List Bytes) (failure : Failure Fault) (later : List (Attempt Fault Bytes))
      (taken : heeds → Takes host before outputs.length) :
      Listed host heeds before (outputs.map .ok ++ .error failure :: later)
        (arrivals host before outputs) (some failure)
  | brokenOff (outputs : List Bytes) (output : Bytes) (later : List (Attempt Fault Bytes))
      (heeded : heeds) (taken : Takes host before outputs.length) (shortfall : Shortfall)
      (short : host.printing (before + outputs.length) = some shortfall) :
      Listed host heeds before (outputs.map .ok ++ .ok output :: later)
        (outputs ++ [output.take shortfall.taken])
        (some ⟨[], .program (.file shortfall.fault)⟩)

section

variable {heeds : Bool} {before : Nat} {given : List (Attempt Fault Bytes)} {pieces : List Bytes}
  {failure? : Option (Failure Fault)}

/-- One more result at the front is printed before all others. -/
theorem Listed.cons (output : Bytes) (passes : heeds → host.printing before = none)
    (later : Listed host heeds (before + 1) given pieces failure?) :
    Listed host heeds before (.ok output :: given)
      (Shortfall.cut (host.printing before) output :: pieces) failure? := by
  cases later with
  | finished outputs taken =>
    exact .finished (output :: outputs) fun heeded => takes_succ (passes heeded) (taken heeded)
  | stopped outputs failure behind taken =>
    exact .stopped (output :: outputs) failure behind
      fun heeded => takes_succ (passes heeded) (taken heeded)
  | brokenOff outputs last behind heeded taken shortfall short =>
    rw [passes heeded]
    refine .brokenOff (output :: outputs) last behind heeded (takes_succ (passes heeded) taken)
      shortfall ?_
    rw [List.length_cons, ← Nat.add_assoc, Nat.add_right_comm]
    exact short

end

/-- The effects after further pieces are printed. -/
def withPrinted (effects : Effects) (pieces : List Bytes) : Effects :=
  { effects with printed := effects.printed ++ pieces }

/-- Output that is taken whole is printed. -/
theorem attempt_put_of_whole {effects : Effects}
    (whole : host.printing effects.printed.length = none) (heeds : Bool) (content : Bytes) :
    host.attempt (put heeds content) effects = (.ok (), withPrinted effects [content]) := by
  have answered : host.attempt (Task.request (.print content)) effects =
      (.ok none, withPrinted effects [content]) := by
    rw [Host.attempt_request]
    simp [Host.answer, whole, withPrinted, Shortfall.cut, modifyGet, MonadStateOf.modifyGet,
      StateT.modifyGet, StateT.run, pure]
  rw [put, Host.attempt_bind_of_ok answered]
  rfl

/-- Output that is not taken whole arrives in part, which is a failure only if it is heeded. -/
theorem attempt_put_of_short {effects : Effects} {shortfall : Shortfall}
    (short : host.printing effects.printed.length = some shortfall) (heeds : Bool)
    (content : Bytes) :
    host.attempt (put heeds content) effects =
      (if heeds then .error ⟨[], .program (.file shortfall.fault)⟩ else .ok (),
        withPrinted effects [content.take shortfall.taken]) := by
  have answered : host.attempt (Task.request (.print content)) effects =
      (.ok (some shortfall.fault), withPrinted effects [content.take shortfall.taken]) := by
    rw [Host.attempt_request]
    simp [Host.answer, short, withPrinted, Shortfall.cut, modifyGet, MonadStateOf.modifyGet,
      StateT.modifyGet, StateT.run, pure]
  rw [put, Host.attempt_bind_of_ok answered]
  cases heeds <;> rfl

/-- A task has printed results as they came, when so much was left behind before it. -/
def Prints {α : Type} (host : Host) (heeds : Bool) (given : List (Attempt Fault Bytes))
    (effects : Effects) (ended : Attempt Fault α × Effects) : Prop :=
  ∃ pieces : List Bytes,
    Listed host heeds effects.printed.length given pieces ended.1.failure? ∧
      ended.2 = withPrinted effects pieces

/-- An output before the others is printed before them. -/
theorem Prints.cons {α β : Type} {heeds : Bool} {given : List (Attempt Fault Bytes)}
    {effects : Effects} {ended : Attempt Fault α × Effects} {output : Bytes} (change : α → β)
    (passes : heeds → host.printing effects.printed.length = none)
    (later : Prints host heeds given (withPrinted effects
      [Shortfall.cut (host.printing effects.printed.length) output]) ended) :
    Prints host heeds (.ok output :: given) effects (change <$> ended.1, ended.2) := by
  obtain ⟨pieces, listed, left⟩ := later
  refine ⟨Shortfall.cut (host.printing effects.printed.length) output :: pieces, ?_, ?_⟩
  · have same : Attempt.failure? (change <$> ended.1) = ended.1.failure? := by
      cases ended.1 <;> rfl
    rw [same]
    refine .cons output passes ?_
    rw [withPrinted, List.length_append] at listed
    exact listed
  · rw [left, withPrinted, withPrinted, withPrinted, List.append_assoc]
    rfl

/-- Printing what a step gives for one input after another. -/
theorem attempt_runEach_prints {step : String → Bytes → Program.Step Bytes}
    {items : List (String × Task Bytes)} {given : List (Attempt Fault Bytes)} (heeds : Bool)
    (gives : List.Forall₂ (Gives host step) items given) (effects : Effects) :
    Prints host heeds given effects
      (host.attempt (runEach (putResult heeds step) items) effects) := by
  induction gives generalizing effects with
  | nil => exact ⟨[], .finished [] fun _ => takes_zero _, by simp [runEach, withPrinted]⟩
  | @cons input result rest later here _ inductionHypothesis =>
    have first := here.attempt effects
    have parted : (do putResult heeds step input.1 (← input.2)) =
        (do Task.ofStep (step input.1 (← input.2))) >>= put heeds := by
      simp only [putResult, bind_assoc]
    cases result with
    | error failure =>
      have fails := Host.attempt_bind_of_error first (put heeds)
      rw [← parted] at fails
      rw [attempt_runEach_of_error fails]
      exact ⟨[], .stopped [] failure later fun _ => takes_zero _, by simp [withPrinted]⟩
    | ok output =>
      have puts := Host.attempt_bind_of_ok first (put heeds)
      rw [← parted] at puts
      have onwards := inductionHypothesis (withPrinted effects
        [Shortfall.cut (host.printing effects.printed.length) output])
      cases answer : host.printing effects.printed.length with
      | none =>
        rw [attempt_put_of_whole answer] at puts
        rw [attempt_runEach_of_ok puts]
        rw [answer] at onwards
        refine .cons _ (fun _ => answer) ?_
        rw [answer]
        exact onwards
      | some shortfall =>
        rw [attempt_put_of_short answer] at puts
        cases heeds with
        | false =>
          rw [attempt_runEach_of_ok puts]
          refine .cons _ (fun heeded => absurd heeded Bool.false_ne_true) ?_
          rw [answer] at onwards ⊢
          exact onwards
        | true =>
          rw [attempt_runEach_of_error puts]
          exact ⟨[output.take shortfall.taken],
            .brokenOff [] output later rfl (takes_zero _) shortfall answer, rfl⟩

/-! ### Everything at the end -/

/-- The outcome of the command that compiles, given the results of its inputs: nothing but the first
failure, or all results in one place, as far as the host takes them. -/
inductive AllOrNothing (host : Host) (settings : Settings) :
    List (Attempt Fault Bytes) → Outcome → Prop where
  | failed (outputs : List Bytes) (failure : Failure Fault) (later : List (Attempt Fault Bytes)) :
      AllOrNothing host settings (outputs.map .ok ++ .error failure :: later)
        { failure := some (failure.within "translate") }
  | printed (outputs : List Bytes) (standard : settings.output = "" ∨ settings.output = "-")
      (whole : host.printing 0 = none) :
      AllOrNothing host settings (outputs.map .ok) { printed := outputs.flatten }
  | printedPart (outputs : List Bytes) (standard : settings.output = "" ∨ settings.output = "-")
      (shortfall : Shortfall) (short : host.printing 0 = some shortfall) :
      AllOrNothing host settings (outputs.map .ok)
        { printed := outputs.flatten.take shortfall.taken
          failure := some ⟨["translate"], .program (.file shortfall.fault)⟩ }
  | written (outputs : List Bytes) (named : settings.output ≠ "" ∧ settings.output ≠ "-")
      (whole : host.writing settings.output = .ok none) :
      AllOrNothing host settings (outputs.map .ok)
        { written := #[(settings.output, outputs.flatten)] }
  | writtenPart (outputs : List Bytes) (named : settings.output ≠ "" ∧ settings.output ≠ "-")
      (shortfall : Shortfall) (short : host.writing settings.output = .ok (some shortfall)) :
      AllOrNothing host settings (outputs.map .ok)
        { written := #[(settings.output, outputs.flatten.take shortfall.taken)]
          failure := some ⟨["translate", "write output"], .program (.file shortfall.fault)⟩ }
  | unopened (outputs : List Bytes) (named : settings.output ≠ "" ∧ settings.output ≠ "-")
      (fault : FileFault) (refused : host.writing settings.output = .error fault) :
      AllOrNothing host settings (outputs.map .ok)
        { failure := some ⟨["translate", "write output"], .program (.file fault)⟩ }

/-- The outcome of a command with the given name, as the first thing that is done. -/
def outcomeOf {α : Type} (host : Host) (name : String) (task : Task α) : Outcome :=
  .ofResult (Attempt.inside name (host.attempt task {}).1) (host.attempt task {}).2

theorem outcomeOf_eq {α : Type} {name : String} {task : Task α} {result : Attempt Fault α}
    {effects : Effects} (ended : host.attempt task {} = (result, effects)) :
    outcomeOf host name task = .ofResult (Attempt.inside name result) effects := by
  rw [outcomeOf, ended]

/-- A file that is not written is a failure at that file. -/
theorem attempt_store_of_fault {name : String} {content : Bytes} {effects after : Effects}
    {fault : FileFault}
    (answered : (host.answer (.writeFile name content)).run effects = (some fault, after)) :
    host.attempt (store name content) effects =
      (.error ⟨["write output"], .program (.file fault)⟩, after) := by
  rw [store, Host.attempt_bind_of_ok (host.attempt_request _ _), answered]
  rfl

theorem attempt_store_of_none {name : String} {content : Bytes} {effects after : Effects}
    (answered : (host.answer (.writeFile name content)).run effects = (none, after)) :
    host.attempt (store name content) effects = (.ok (), after) := by
  rw [store, Host.attempt_bind_of_ok (host.attempt_request _ _), answered]
  rfl

/-- A file that cannot be opened is left as it is. -/
theorem answer_writeFile_of_refused {name : String} {fault : FileFault}
    (refused : host.writing name = .error fault) (content : Bytes) (effects : Effects) :
    (host.answer (.writeFile name content)).run effects = (some fault, effects) := by
  simp only [Host.answer, refused]
  rfl

/-- A file that is opened gets the content, or the part of it that is taken. -/
theorem answer_writeFile_of_opened {name : String} {shortfall? : Option Shortfall}
    (opened : host.writing name = .ok shortfall?) (content : Bytes) (effects : Effects) :
    (host.answer (.writeFile name content)).run effects =
      (shortfall?.map Shortfall.fault,
        { effects with
          written := effects.written.push (name, Shortfall.cut shortfall? content) }) := by
  simp only [Host.answer, opened]
  rfl

/-- Results are put in one place, as far as the host takes them. -/
theorem deliver_allOrNothing (settings : Settings) (outputs : List Bytes) :
    AllOrNothing host settings (outputs.map .ok)
      (outcomeOf host "translate" (deliver settings outputs.flatten)) := by
  unfold deliver
  cases prints : settings.prints with
  | true =>
    have standard : settings.output = "" ∨ settings.output = "-" := by
      simpa [Settings.prints] using prints
    rw [if_pos rfl]
    cases answer : host.printing 0 with
    | none =>
      rw [outcomeOf_eq (attempt_put_of_whole answer true outputs.flatten)]
      simpa [Outcome.ofResult, withPrinted, Attempt.inside, Attempt.failure?] using
        AllOrNothing.printed outputs standard answer
    | some shortfall =>
      rw [outcomeOf_eq (attempt_put_of_short answer true outputs.flatten)]
      simpa [Outcome.ofResult, withPrinted, Attempt.inside, Attempt.failure?, Failure.within] using
        AllOrNothing.printedPart outputs standard shortfall answer
  | false =>
    have named : settings.output ≠ "" ∧ settings.output ≠ "-" := by
      simpa [Settings.prints] using prints
    rw [if_neg Bool.false_ne_true]
    cases answer : host.writing settings.output with
    | error fault =>
      rw [outcomeOf_eq (attempt_store_of_fault (answer_writeFile_of_refused answer _ _))]
      exact .unopened outputs named fault answer
    | ok shortfall? =>
      have opened := answer_writeFile_of_opened answer outputs.flatten {}
      cases shortfall? with
      | none =>
        rw [outcomeOf_eq (attempt_store_of_none opened)]
        exact .written outputs named answer
      | some shortfall =>
        rw [outcomeOf_eq (attempt_store_of_fault opened)]
        exact .writtenPart outputs named shortfall answer

/-- The options that a command gets from its flags and from the file that they name. -/
def Settings.loaded (host : Host) (settings : Settings) : Attempt Fault Options :=
  if settings.optionsFile = "" then .ok (settings.apply {})
  else
    settings.apply <$> Attempt.widen .program
      (Attempt.inside "load options" (Program.loadOptions host settings.optionsFile))

/-- Loading the settings has no effects. -/
theorem attempt_options (settings : Settings) (effects : Effects) :
    host.attempt settings.options effects = (settings.loaded host, effects) := by
  unfold Settings.options Settings.loaded
  split
  · rfl
  · rw [Host.attempt_bind_of_ok (host.attempt_request _ _)]
    change host.attempt (do
      return settings.apply (← Task.ofStep (Attempt.inside "load options"
        (Program.loadOptions host settings.optionsFile)))) effects = _
    cases Attempt.inside "load options" (Program.loadOptions host settings.optionsFile) <;> rfl

/-- Once the settings are loaded, the first failure is all there is, or all results are delivered. -/
theorem compileAll_allOrNothing {settings : Settings} {options : Options}
    (loaded : settings.loaded host = .ok options) (names : List String) :
    AllOrNothing host settings (results host (Program.compile options) names)
      (outcomeOf host "translate" (compileAll settings names)) := by
  have options_loaded : host.attempt settings.options {} = (.ok options, {}) := by
    rw [attempt_options, loaded]
  rcases attempt_runEach_cases (inputs_give_results host (Program.compile options) names)
    {} with ⟨outputs, given, run⟩ | ⟨outputs, failure, later, given, run⟩
  · have delivers : host.attempt (compileAll settings names) {} =
        host.attempt (deliver settings outputs.flatten) {} := by
      rw [compileAll, Host.attempt_bind_of_ok options_loaded, Host.attempt_bind_of_ok run]
    rw [given, outcomeOf, delivers]
    exact deliver_allOrNothing settings outputs
  · have fails : host.attempt (compileAll settings names) {} = (.error failure, {}) := by
      rw [compileAll, Host.attempt_bind_of_ok options_loaded, Host.attempt_bind_of_error run]
    rw [given, outcomeOf_eq fails]
    exact .failed outputs failure later

/-! ### The commands on the same inputs -/

/-- A command is run under its own name. -/
theorem run_command {name : String} {command : List String → Task Unit} (word : name ≠ "--")
    (noFlag : ¬ Flags.isFlag name) (found : command? name = some command)
    (arguments : List String) :
    run host (name :: arguments) = outcomeOf host name (command arguments) := by
  have same : session (name :: arguments) = (command arguments).inside name := by
    simp only [session, if_neg word, if_neg noFlag, found]
  rw [run, same]
  change Outcome.ofResult (host.attempt ((command arguments).inside name) {}).1
    (host.attempt ((command arguments).inside name) {}).2 = _
  rw [Host.attempt_inside]
  rfl

theorem outcomeOf_withArguments {Settings : Type}
    {setter? : String → Option (Flags.Setter Settings)} {settings given : Settings}
    {arguments names : List String}
    (flags : Flags.read setter? settings arguments = .ok (given, names))
    (name : String) (action : Settings → List String → Task Unit) :
    outcomeOf host name (withArguments setter? settings action arguments) =
      outcomeOf host name (action given names) := by
  have read : host.attempt (Task.ofAttempt (Attempt.widen .usage
      (Flags.read setter? settings arguments))) {} = (.ok (given, names), {}) := by
    rw [flags]
    rfl
  rw [outcomeOf, withArguments, Host.attempt_bind_of_ok read]
  rfl

/-- Listing results is printing them as they come, after nothing was printed. -/
theorem listing_listed (heeds : Bool) (step : String → Bytes → Program.Step Bytes)
    (names : List String) (command : String) :
    ∃ (pieces : List Bytes) (failure? : Option (Failure Fault)),
      Listed host heeds 0 (results host step names) pieces failure? ∧
        outcomeOf host command (listing heeds step names) =
          { printed := pieces.flatten, failure := failure?.map (Failure.within command) } := by
  obtain ⟨pieces, listed, left⟩ :=
    attempt_runEach_prints heeds (inputs_give_results host step names) {}
  refine ⟨pieces, _, listed, ?_⟩
  cases ended : host.attempt (runEach (putResult heeds step) (inputs names)) {} with
  | mk result effects =>
    obtain rfl : effects = withPrinted {} pieces := by rw [← left, ended]
    cases result with
    | ok results =>
      rw [outcomeOf, listing, Host.attempt_bind_of_ok ended]
      rfl
    | error failure =>
      rw [outcomeOf, listing, Host.attempt_bind_of_error ended]
      rfl

/-! ### A workspace with one file -/

/-- The text of a module with one function. -/
def functionText : String :=
  "_type: Module\nbody:\n- _type: FunctionDef\n  name: f\n  body:\n  - _type: Pass\n"

/-- A workspace whose only file has a function in it. -/
def oneFile : Workspace :=
  { files := [("a", functionText)] }

theorem exists_compile_functionText :
    ∃ output, Program.compile {} "a" functionText = .ok output := by
  simp only [← toOption_eq_some_iff, ← Option.isSome_iff_exists]
  decide +kernel

/-- The only file can be read, no other file can, and there is no directory to write to. -/
theorem oneFile_access :
    oneFile.read "a" = .ok functionText ∧
      oneFile.read "b" = .error ⟨"open", "b", .missing⟩ ∧
      oneFile.checkWrite "d/o" = .error .missing := by
  decide +kernel

/-- With flags and files for the command that compiles, it puts all results in one place, as far as
the host takes them there, or leaves nothing behind but a failure: that of the options, of the first
input that fails, or of opening the place. With the same files, the commands that list things have
printed the results before the first input that fails for them. One of them goes on when the host
breaks off, and the other one stops there. -/
theorem translate_all_or_nothing {settings : Settings} {arguments names : List String}
    (flags : Flags.read Settings.setter? {} arguments = .ok (settings, names)) :
    (∀ options, settings.loaded host = .ok options →
      AllOrNothing host settings (results host (Program.compile options) names)
        (run host ("translate" :: arguments))) ∧
    (∀ failure, settings.loaded host = .error failure →
      run host ("translate" :: arguments) =
        { failure := some (failure.within "translate") }) ∧
    ∀ others, Flags.read noSetter? () others = .ok ((), names) →
      (∃ (pieces : List Bytes) (failure? : Option (Failure Fault)),
        Listed host false 0 (results host dumpTree names) pieces failure? ∧
          run host ("dump" :: others) =
            { printed := pieces.flatten, failure := failure?.map (Failure.within "dump") }) ∧
      ∃ (pieces : List Bytes) (failure? : Option (Failure Fault)),
        Listed host true 0 (results host (dumpSymbols host.origin?) names) pieces failure? ∧
          run host ("symbols" :: others) =
            { printed := pieces.flatten, failure := failure?.map (Failure.within "symbols") } := by
  have translate : run host ("translate" :: arguments) =
      outcomeOf host "translate" (compileAll settings names) := by
    rw [run_command (by decide) (by decide +kernel) rfl, outcomeOf_withArguments flags]
  refine ⟨fun options loaded => ?_, fun failure refused => ?_, fun others plain => ⟨?_, ?_⟩⟩
  · rw [translate]
    exact compileAll_allOrNothing loaded names
  · have fails : host.attempt settings.options {} = (.error failure, {}) := by
      rw [attempt_options, refused]
    rw [translate, compileAll, outcomeOf_eq (Host.attempt_bind_of_error fails _)]
    rfl
  · rw [run_command (by decide) (by decide +kernel) rfl, outcomeOf_withArguments plain]
    exact listing_listed false dumpTree names "dump"
  · rw [run_command (by decide) (by decide +kernel) rfl, outcomeOf_withArguments plain]
    have asked : outcomeOf host "symbols" (listAllSymbols names) =
        outcomeOf host "symbols" (listing true (dumpSymbols host.origin?) names) := by
      rw [outcomeOf, listAllSymbols, Host.attempt_bind_of_ok (host.attempt_request _ _)]
      rfl
    rw [asked]
    exact listing_listed true (dumpSymbols host.origin?) names "symbols"

/-- The file is compiled, and behind it is one that is missing. -/
theorem translate_all_or_nothing_with_missing_file :
    let host := oneFile.host
    let settings : Settings := { output := "o" }
    Flags.read Settings.setter? {} ["-o", "o", "a", "b"] = .ok (settings, ["a", "b"]) ∧
      Flags.read noSetter? () ["a", "b"] = .ok ((), ["a", "b"]) ∧
      settings.loaded host = .ok {} ∧
      (∃ output, results host (Program.compile {}) ["a", "b"] =
        [.ok output, .error ⟨["read b"], .program (.file ⟨"open", "b", .missing⟩)⟩]) ∧
      AllOrNothing host settings (results host (Program.compile {}) ["a", "b"])
        (run host ["translate", "-o", "o", "a", "b"]) ∧
      (∃ pieces failure?, Listed host false 0 (results host dumpTree ["a", "b"]) pieces failure? ∧
        run host ["dump", "a", "b"] =
          { printed := pieces.flatten, failure := failure?.map (Failure.within "dump") }) ∧
      ∃ pieces failure?,
        Listed host true 0 (results host (dumpSymbols none) ["a", "b"]) pieces failure? ∧
          run host ["symbols", "a", "b"] =
            { printed := pieces.flatten, failure := failure?.map (Failure.within "symbols") } := by
  intro host settings
  have flags : Flags.read Settings.setter? {} ["-o", "o", "a", "b"] =
      .ok (settings, ["a", "b"]) := toOption_eq_some_iff.mp (by decide +kernel)
  have plain : Flags.read noSetter? () ["a", "b"] = .ok ((), ["a", "b"]) :=
    toOption_eq_some_iff.mp (by decide +kernel)
  have loaded : settings.loaded host = .ok {} := rfl
  obtain ⟨there, missing, _⟩ := oneFile_access
  obtain ⟨output, compiled⟩ := exists_compile_functionText
  obtain ⟨translated, _, listed⟩ := translate_all_or_nothing flags
  refine ⟨flags, plain, loaded, ⟨output, ?_⟩, translated {} loaded, listed ["a", "b"] plain⟩
  have first : fileInput host "a" = .ok functionText := by
    simp only [fileInput, host, Workspace.host, there]
  have second : fileInput host "b" =
      .error ⟨["read b"], .program (.file ⟨"open", "b", .missing⟩)⟩ := by
    simp only [fileInput, host, Workspace.host, missing]
    rfl
  have here : resultOf (Program.compile {}) "a" (.ok functionText) = .ok output := by
    rw [resultOf_ok, compiled]
    rfl
  simp only [results, List.map_cons, List.map_nil, first, second, here]
  rfl

/-- Without files the standard input is compiled, so there can be a failure although no file fails.
There is also one if the results cannot be written where the flags want them. -/
theorem translate_fails_without_failing_file :
    (run ({} : Workspace).host ["translate"]).failure.isSome ∧
      (∃ output, resultOf (Program.compile {}) "a" (fileInput oneFile.host "a") = .ok output) ∧
      (run oneFile.host ["translate", "-o", "d/o", "a"]).written = #[] ∧
      (run oneFile.host ["translate", "-o", "d/o", "a"]).complaint? =
        some "error: translate: write output: open d/o: no such file or directory" := by
  refine ⟨by decide +kernel, ?_, by decide +kernel, by decide +kernel⟩
  simp only [← toOption_eq_some_iff, ← Option.isSome_iff_exists]
  decide +kernel

end Command

end Oxide
