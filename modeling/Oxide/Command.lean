/-
This file is the command line of the program, as a session with the host that depends on the
arguments. The command that compiles prints or writes everything at its end or nothing; the commands
that list things print as they go.
-/

import Oxide.Command.Flags
import Oxide.Program

namespace Oxide.Command

open Text (Bytes utf8)

/-! ### Tasks -/

/-- Why a command fails. -/
inductive Fault where
  | usage (fault : UsageFault)
  | program (fault : ProgramFault)
  | terminal

/-- The wording of a fault. -/
def Fault.message : Fault → String
  | .usage fault => fault.message
  | .program fault => fault.message
  | .terminal => "no input files and stdin is a terminal"

/-- A part of a session, which may fail. -/
abbrev Task := ExceptT (Failure Fault) Session

namespace Task

variable {α : Type}

/-- Has the given result or failure. -/
def ofAttempt (attempt : Attempt Fault α) : Task α :=
  ExceptT.mk (pure attempt)

/-- Has the result or the failure of a step of the program. -/
def ofStep (step : Program.Step α) : Task α :=
  ofAttempt (Attempt.widen .program step)

/-- Asks the host for one thing. -/
def request {Answer : Type} (request : Request Answer) : Task Answer :=
  ExceptT.lift (Session.request request)

/-- Adds a place to the trail of a failure. -/
def inside (place : String) (task : Task α) : Task α :=
  ExceptT.mk (Attempt.inside place <$> task.run)

end Task

/-! ### Inputs -/

/-- The content of a file that is given as an input. -/
def readFile (name : String) : Task Bytes := do
  let answer ← Task.request (.readFile name)
  Task.ofStep (Attempt.inside ("read " ++ name) (Program.fileContent answer))

/-- The standard input, unless somebody would have to type it. -/
def readInput : Task Bytes := do
  if ← Task.request .isTerminal then Task.ofAttempt (Attempt.fail .terminal)
  else
    let answer ← Task.request .readInput
    Task.ofStep (Attempt.inside "read stdin" (Program.fileContent answer))

/-- The inputs with their names: the given files, or else the standard input. -/
def inputs (names : List String) : List (String × Task Bytes) :=
  if names.isEmpty then [("<stdin>", readInput)]
  else names.map fun name => (name, readFile name)

/-- The results of an action on one input after another, up to the first failure. -/
def runEach {α : Type} (action : String → Bytes → Task α) :
    List (String × Task Bytes) → Task (List α)
  | [] => return []
  | (name, text) :: rest => do
    let result ← action name (← text)
    return result :: (← runEach action rest)

/-! ### Outputs -/

/-- Prints something. A fault that breaks it off is heeded or passed over. -/
def put (heeds : Bool) (content : Bytes) : Task Unit := do
  match ← Task.request (.print content) with
  | some fault => if heeds then Task.ofStep (Attempt.fail (.file fault)) else return
  | none => return

/-- Makes something the content of a file. -/
def store (name : String) (content : Bytes) : Task Unit := do
  match ← Task.request (.writeFile name content) with
  | some fault => Task.ofStep (Attempt.inside "write output" (Attempt.fail (.file fault)))
  | none => return

/-- Prints what a step gives for a text. -/
def putResult (heeds : Bool) (step : String → Bytes → Program.Step Bytes) (name : String)
    (text : Bytes) : Task Unit := do
  put heeds (← Task.ofStep (step name text))

/-- Prints what a step gives for each input, as it goes. -/
def listing (heeds : Bool) (step : String → Bytes → Program.Step Bytes) (names : List String) :
    Task Unit := do
  let _ ← runEach (putResult heeds step) (inputs names)

/-! ### The command that compiles -/

/-- The flags of the command that compiles. -/
structure Settings where
  optionsFile : String := ""
  useRuntime : Bool := false
  space : String := ""
  qualify : Bool := false
  noDocs : Bool := false
  output : String := "-"
  deriving DecidableEq

namespace Settings

/-- What the flag with the given name sets. -/
def setter? (name : String) : Option (Flags.Setter Settings) :=
  if name = "options" then some (.text fun value settings => { settings with optionsFile := value })
  else if name = "std-python" then
    some (.truth fun value settings => { settings with useRuntime := value })
  else if name = "namespace" then
    some (.text fun value settings => { settings with space := value })
  else if name = "qualify" then
    some (.truth fun value settings => { settings with qualify := value })
  else if name = "no-docs" then
    some (.truth fun value settings => { settings with noDocs := value })
  else if name = "output" || name = "o" then
    some (.text fun value settings => { settings with output := value })
  else none

/-- The flags on top of the options of a file. A flag can set an option and cannot take it back. -/
def apply (settings : Settings) (options : Options) : Options :=
  { space := if settings.space = "" then options.space else settings.space
    qualifyObjects := settings.qualify || options.qualifyObjects
    useRuntime := settings.useRuntime || options.useRuntime
    noDocstrings := settings.noDocs || options.noDocstrings }

/-- The options that the flags ask for. -/
def options (settings : Settings) : Task Options := do
  if settings.optionsFile = "" then return settings.apply {}
  else
    let answer ← Task.request (.readFile settings.optionsFile)
    return settings.apply (← Task.ofStep (Attempt.inside "load options" (Program.optionsOf answer)))

/-- Whether the result is to be printed. -/
def prints (settings : Settings) : Bool :=
  settings.output = "" || settings.output = "-"

end Settings

/-- Puts a result where the flags want it. -/
def deliver (settings : Settings) (result : Bytes) : Task Unit :=
  if settings.prints then put true result else store settings.output result

/-- Compiles all inputs, or none. -/
def compileAll (settings : Settings) (names : List String) : Task Unit := do
  let options ← settings.options
  let compile name text := Task.ofStep (Program.compile options name text)
  let outputs ← runEach compile (inputs names)
  deliver settings outputs.flatten

/-! ### All commands -/

/-- Prints the tree of a text on a line. -/
def dumpTree (name : String) (text : Bytes) : Program.Step Bytes := do
  let source ← Program.readTree name text
  return utf8 (source.dump ++ "\n")

/-- Prints the functions of a text. -/
def dumpSymbols (origin? : Option String) (name : String) (text : Bytes) : Program.Step Bytes :=
  utf8 <$> Program.listSymbols origin? name text

/-- Lists the trees of all inputs, whether they can be printed or not. -/
def listTrees (names : List String) : Task Unit :=
  listing false dumpTree names

/-- Lists the functions of all inputs, as long as they can be printed. -/
def listAllSymbols (names : List String) : Task Unit := do
  let origin? ← Task.request .origin
  listing true (dumpSymbols origin?) names

/-- Does something with the settings and words of a command. -/
def withArguments {Settings : Type} (setter? : String → Option (Flags.Setter Settings))
    (settings : Settings) (action : Settings → List String → Task Unit)
    (arguments : List String) : Task Unit := do
  let (settings, words) ←
    Task.ofAttempt (Attempt.widen .usage (Flags.read setter? settings arguments))
  action settings words

/-- The flags of a command without flags. -/
def noSetter? (_ : String) : Option (Flags.Setter Unit) :=
  none

/-- The command with the given name. -/
def command? (name : String) : Option (List String → Task Unit) :=
  if name = "translate" then some (withArguments Settings.setter? {} compileAll)
  else if name = "dump" then some (withArguments noSetter? () fun _ => listTrees)
  else if name = "symbols" then some (withArguments noSetter? () fun _ => listAllSymbols)
  else none

/-- The text that explains the commands. -/
def help : String :=
  "pyrs [flags] - pyrs translates python ast into rust source code\n\n" ++
  "Subcommands\n" ++
  "    translate           \n" ++
  "    dump                 - print decoded python ast\n" ++
  "    symbols              - print module level symbols\n"

/-- What the program does: the first word is the name of a command, and without any there is
help. -/
def session : List String → Task Unit
  | [] => put false (utf8 help)
  | first :: rest =>
    if first = "--" then
      match rest with
      | [] => put false (utf8 help)
      | word :: _ => Task.ofAttempt (Attempt.fail (.usage (.unexpectedWord word)))
    else if Flags.isFlag first then
      Task.ofAttempt (Attempt.inside ("parse flag: " ++ first) (Attempt.fail (.usage .noSuchFlag)))
    else
      match command? first with
      | some command => (command rest).inside first
      | none => Task.ofAttempt (Attempt.fail (.usage (.unexpectedWord first)))

/-! ### Outcomes -/

/-- What the program has done in the end: the text that it printed, the files that it wrote, and its
failure. -/
structure Outcome where
  printed : Bytes := []
  written : Array (String × Bytes) := #[]
  failure : Option (Failure Fault) := none

namespace Outcome

/-- The outcome of a task, given its result and what it leaves behind. -/
def ofResult {α : Type} (result : Attempt Fault α) (effects : Effects) : Outcome :=
  { printed := effects.printed.flatten, written := effects.written, failure := result.failure? }

/-- The status that tells whether the program has failed. -/
def status (outcome : Outcome) : Nat :=
  if outcome.failure.isSome then 1 else 0

/-- The complaint about a failure. -/
def complaint? (outcome : Outcome) : Option String :=
  outcome.failure.map fun failure => "error: " ++ failure.message Fault.message

end Outcome

/-- Runs the program on a host. -/
def run (host : Host) (arguments : List String) : Outcome :=
  let (result, effects) := host.perform (session arguments).run {}
  .ofResult result effects

end Oxide.Command
