/-
This file is about the sequences of numbers that calls of `range` stand for. A sequence of the
language that is read goes from its start in steps up or down, until it comes to its stop. What is
written for it counts up from the start to the stop one by one and then takes every so many of
these numbers, where the step has become a word without a sign. The two are the same sequence if
the step is positive, and otherwise only if both are empty because start and stop are the same.
-/

import Oxide.Proofs.Acceptance
import Oxide.Proofs.IntegerArithmetic

namespace Oxide

/-! ### Sequences of numbers -/

/-- The numbers from the start on, one step after another, that have not come to the stop. -/
def progression (start stop step : Int) : List Int :=
  if 0 < step ∧ start < stop ∨ step < 0 ∧ stop < start then
    start :: progression (start + step) stop step
  else []
termination_by (if 0 < step then stop - start else start - stop).toNat
decreasing_by split <;> omega

theorem progression_of_lt {start stop step : Int} (up : 0 < step) (below : start < stop) :
    progression start stop step = start :: progression (start + step) stop step := by
  rw [progression, if_pos (.inl ⟨up, below⟩)]

theorem progression_of_gt {start stop step : Int} (down : step < 0) (above : stop < start) :
    progression start stop step = start :: progression (start + step) stop step := by
  rw [progression, if_pos (.inr ⟨down, above⟩)]

/-- Steps up that start at the stop or behind it lead nowhere. -/
theorem progression_of_ge {start stop step : Int} (up : 0 < step) (behind : stop ≤ start) :
    progression start stop step = [] := by
  rw [progression, if_neg (by omega)]

/-- Steps down that start at the stop or before it lead nowhere. -/
theorem progression_of_le {start stop step : Int} (down : step < 0) (before : start ≤ stop) :
    progression start stop step = [] := by
  rw [progression, if_neg (by omega)]

/-- Without its first numbers, a sequence that counts up starts so much later. -/
theorem drop_progression (count : Nat) (start stop : Int) :
    (progression start stop 1).drop count = progression (start + count) stop 1 := by
  induction count generalizing start with
  | zero => rw [List.drop_zero, Int.natCast_zero, Int.add_zero]
  | succ count inductionHypothesis =>
    have later : start + 1 + count = start + (count + 1 : Nat) := by omega
    by_cases below : start < stop
    · rw [progression_of_lt Int.one_pos below, List.drop_succ_cons, inductionHypothesis, later]
    · rw [progression_of_ge Int.one_pos (by omega), progression_of_ge Int.one_pos (by omega),
        List.drop_nil]

/-- Steps up and steps down never find the same numbers, unless there is nowhere to go. -/
theorem progression_up_eq_down_iff {start stop up down : Int} (isUp : 0 < up) (isDown : down < 0) :
    progression start stop up = progression start stop down ↔ start = stop := by
  by_cases below : start < stop
  · rw [progression_of_lt isUp below, progression_of_le isDown (Int.le_of_lt below)]
    exact iff_of_false (List.cons_ne_nil _ _) (Int.ne_of_lt below)
  · rw [progression_of_ge isUp (Int.not_lt.mp below)]
    by_cases above : stop < start
    · rw [progression_of_gt isDown above]
      exact iff_of_false (List.cons_ne_nil _ _).symm (Int.ne_of_gt above)
    · rw [progression_of_le isDown (Int.not_lt.mp above)]
      exact iff_of_true rfl (by omega)

/-! ### Sequences of words -/

namespace Word

theorem toInt_succ {word bound : Word} (below : word.toInt < bound.toInt) :
    (word + 1).toInt = word.toInt + 1 := by
  have high := bound.toInt_lt
  have low := word.le_toInt
  rw [BitVec.toInt_add, show (1 : Word).toInt = 1 from rfl, Int.bmod_eq_of_le] <;> omega

/-- The words from the start on, one after another, that are less than the stop. -/
def upTo (start stop : Word) : List Word :=
  if start.toInt < stop.toInt then start :: upTo (start + 1) stop else []
termination_by (stop.toInt - start.toInt).toNat
decreasing_by
  rename_i below
  rw [toInt_succ below]
  omega

/-- Counting up, words do not run over. -/
theorem map_toInt_upTo (start stop : Word) :
    (upTo start stop).map BitVec.toInt = progression start.toInt stop.toInt 1 := by
  fun_induction upTo start stop with
  | case1 start below inductionHypothesis =>
    rw [List.map_cons, inductionHypothesis, toInt_succ below,
      progression_of_lt Int.one_pos below]
  | case2 start notBelow =>
    rw [progression_of_ge Int.one_pos (Int.not_lt.mp notBelow), List.map_nil]

/-- The first of some items, and then each time the one that comes so many later. -/
def everyNth {Item : Type} (count : Nat) : List Item → List Item
  | [] => []
  | first :: rest => first :: everyNth count (rest.drop (count - 1))
termination_by items => items.length
decreasing_by simp only [List.length_drop, List.length_cons]; omega

theorem map_everyNth {Item Image : Type} (image : Item → Image) (count : Nat)
    (items : List Item) :
    (everyNth count items).map image = everyNth count (items.map image) := by
  fun_induction everyNth count items with
  | case1 => rw [List.map_nil, everyNth]
  | case2 first rest inductionHypothesis =>
    rw [List.map_cons, inductionHypothesis, List.map_cons, everyNth, List.map_drop]

/-- Every so many numbers of those that count up are a sequence with a wider step. -/
theorem everyNth_progression {count : Nat} (positive : 0 < count) (start stop : Int) :
    everyNth count (progression start stop 1) = progression start stop count := by
  have up : (0 : Int) < count := Int.natCast_pos.mpr positive
  induction distance : (stop - start).toNat using Nat.strongRecOn generalizing start with
  | ind distance inductionHypothesis =>
    by_cases below : start < stop
    · have next : start + 1 + (count - 1 : Nat) = start + count := by omega
      rw [progression_of_lt Int.one_pos below, everyNth, drop_progression, next,
        inductionHypothesis _ (by omega) _ rfl, progression_of_lt up below]
    · rw [progression_of_ge Int.one_pos (by omega), progression_of_ge up (by omega), everyNth]

/-- The items that steps of the given width find; a width of zero stops the program. -/
def stepBy? {Item : Type} (count : Nat) (items : List Item) : Option (List Item) :=
  if count = 0 then none else some (everyNth count items)

/-- A word without its sign is a number that is greater by the number of words. -/
theorem toNat_eq (word : Word) :
    (word.toNat : Int) = if word.toInt < 0 then word.toInt + 2 ^ 64 else word.toInt := by
  have bound := word.isLt
  rw [BitVec.toInt_eq_toNat_cond]
  split <;> split <;> omega

/-- Steps of a word that has lost its sign find the numbers of a sequence if and only if the word
had no sign, or there is nowhere to go. -/
theorem exists_stepBy (start stop : Word) {step : Word} (nonzero : step.toInt ≠ 0) :
    ∃ sequence, stepBy? step.toNat (upTo start stop) = some sequence ∧
      (sequence.map BitVec.toInt = progression start.toInt stop.toInt step.toInt ↔
        0 < step.toInt ∨ start.toInt = stop.toInt) := by
  have width := toNat_eq step
  have low := step.le_toInt
  have positive : 0 < step.toNat := by
    split at width <;> omega
  refine ⟨everyNth step.toNat (upTo start stop), if_neg (Nat.ne_of_gt positive), ?_⟩
  rw [map_everyNth, map_toInt_upTo, everyNth_progression positive]
  by_cases up : 0 < step.toInt
  · rw [if_neg (by omega)] at width
    rw [width]
    exact iff_of_true rfl (.inl up)
  · have down : step.toInt < 0 := by omega
    rw [progression_up_eq_down_iff (Int.natCast_pos.mpr positive) down]
    exact (or_iff_right up).symm

end Word

/-! ### The sequence that is written -/

/-- The sequence of words that the tree of a range stands for, where the variables hold the given
words. -/
def Grammar.Term.sequence? (words : String → Word) : Term → Option (List Word)
  | .binary ".." start stop => do
    return Word.upTo (← start.run? words) (← stop.run? words)
  | .method range "step_by" [.cast step "usize"] => do
    Word.stepBy? (← step.run? words).toNat (← range.sequence? words)
  | _ => none

namespace Lower

open Grammar Word

/-- Whether a call of `range` with these arguments is written as the sequence: it is lowered, and
its stream is read as one tree, which stands for the sequence. -/
def WrittenAs (context : Context) (table : Table) (words : String → Word) (arguments : List Expr)
    (sequence : List Word) : Prop :=
  ∃ stream tree, expr context table (.call (.name "range") arguments []) = .ok stream ∧
    (∀ other, Reads 0 stream.bare other ↔ other = tree) ∧ tree.sequence? words = some sequence

/-- Whether an argument is an expression of whole numbers whose operators all keep their values, and
the number is its value. -/
structure Keeps (values : String → Int) (words : String → Word) (argument : Expr) (number : Int) :
    Prop where
  proper : ∀ node ∈ argument.nodes, node.Proper values
  agrees : ∀ id, .name id ∈ argument.nodes → (words (identName id)).toInt = values id
  exact : ∀ node ∈ argument.nodes, Exact values node
  known : argument.value? values = some number

variable {context : Context} {table : Table} {values : String → Int} {words : String → Word}

/-- A node that is no operation on two operands shifts nothing. -/
theorem proper_of_fits {node : Expr} {number : Int} (known : node.value? values = some number)
    (fits : Oxide.Fits number) (alone : ∀ left op right, node ≠ .binOp left op right) :
    node.Proper values :=
  ⟨⟨number, known, fits⟩, fun left op right same => absurd same (alone left op right)⟩

/-- A variable keeps its value, which a word holds. -/
theorem keeps_name {id : String} (isVariable : id ∉ constantNames)
    (agrees : (words (identName id)).toInt = values id) :
    Keeps values words (.name id) (values id) := by
  have known : (Expr.name id).value? values = some (values id) := by
    rw [Expr.value?, if_neg isVariable]
  have fits : Oxide.Fits (values id) := by
    rw [← agrees]
    exact ⟨BitVec.le_toInt _, BitVec.toInt_lt⟩
  refine ⟨?_, ?_, ?_, known⟩
  · simpa only [Expr.nodes, List.forall_mem_singleton] using
      proper_of_fits known fits fun _ _ _ => Expr.noConfusion
  · intro other used
    obtain rfl : other = id := by simpa [Expr.nodes] using used
    exact agrees
  · simp only [Expr.nodes, List.forall_mem_singleton]
    trivial

theorem keeps_numeral {text : String} {number : Nat} (spelled : numeral? text = some number)
    (fits : Oxide.Fits number) : Keeps values words (.constant (.int text)) number := by
  have known : (Expr.constant (.int text)).value? values = some (number : Int) := by
    rw [Expr.value?, spelled]
    rfl
  refine ⟨?_, ?_, ?_, known⟩
  · simpa only [Expr.nodes, List.forall_mem_singleton] using
      proper_of_fits known fits fun _ _ _ => Expr.noConfusion
  · intro id used
    simp [Expr.nodes] at used
  · simp only [Expr.nodes, List.forall_mem_singleton]
    trivial

theorem Keeps.negated {argument : Expr} {number : Int} (keeps : Keeps values words argument number)
    (fits : Oxide.Fits (-number)) : Keeps values words (.unaryOp "USub" argument) (-number) := by
  have known : (Expr.unaryOp "USub" argument).value? values = some (-number) := by
    rw [Expr.value?, keeps.known]
    rfl
  refine ⟨?_, ?_, ?_, known⟩
  · rw [Expr.nodes, List.forall_mem_cons]
    exact ⟨proper_of_fits known fits fun _ _ _ => Expr.noConfusion, keeps.proper⟩
  · intro id used
    rw [Expr.nodes, List.mem_cons] at used
    obtain same | below := used
    · cases same
    · exact keeps.agrees id below
  · rw [Expr.nodes, List.forall_mem_cons]
    exact ⟨trivial, keeps.exact⟩

theorem Keeps.exists_run {argument : Expr} {number : Int}
    (keeps : Keeps values words argument number) (table : Table) :
    ∃ tree word, term? table argument = some tree ∧ tree.run? words = some word ∧
      word.toInt = number := by
  obtain ⟨tree, value, isTree, known, gives⟩ := gives_iff_exact keeps.proper keeps.agrees
    fun node within => keeps.exact node (List.mem_of_mem_tail within)
  obtain rfl : number = value := Option.some.inj (keeps.known.symm.trans known)
  obtain ⟨word, runs, same⟩ := gives.mpr (keeps.exact argument (self_mem_nodes argument))
  exact ⟨tree, word, isTree, runs, same⟩

theorem Keeps.keepsStructure {argument : Expr} {number : Int}
    (keeps : Keeps values words argument number) :
    ∀ node ∈ argument.nodes, keepsStructure node := by
  intro node within
  obtain ⟨⟨_, known, _⟩, _⟩ := keeps.proper node within
  exact keepsStructure_of_value known

theorem Keeps.accepted {argument : Expr} {number : Int}
    (keeps : Keeps values words argument number) (context : Context) :
    ∀ node ∈ argument.nodes, isAccepted context.isAsync node :=
  (exists_expr_iff_accepted context Table.new argument).mp (exists_expr_eq_ok keeps.known)

/-- A call whose arguments keep their values is written as the sequence that its tree stands for. -/
theorem writtenAs_of_term (context : Context) {arguments : List Expr} {tree : Term}
    {sequence : List Word}
    (all : ∀ argument ∈ arguments, ∃ number, Keeps values words argument number)
    (isTree : term? table (.call (.name "range") arguments []) = some tree)
    (runs : tree.sequence? words = some sequence) :
    WrittenAs context table words arguments sequence := by
  have accepted : ∀ node ∈ (Expr.call (.name "range") arguments []).nodes,
      isAccepted context.isAsync node := by
    rw [Expr.nodes, List.forall_mem_cons, List.forall_mem_append]
    refine ⟨rfl, by simp [Expr.nodes, isAccepted], forall_mem_nodesOf fun argument member => ?_⟩
    obtain ⟨number, keeps⟩ := all argument member
    exact keeps.accepted context
  have kept : ∀ node ∈ (Expr.call (.name "range") arguments []).nodes, keepsStructure node := by
    rw [Expr.nodes, List.forall_mem_cons, List.forall_mem_append]
    refine ⟨rfl, by simp [Expr.nodes, keepsStructure], forall_mem_nodesOf fun argument member => ?_⟩
    obtain ⟨number, keeps⟩ := all argument member
    exact keeps.keepsStructure
  obtain ⟨stream, lowered⟩ := exists_expr_of_accepted _ accepted
  obtain ⟨other, isOther, readable⟩ := readsBackRules.sound _ stream lowered kept
  obtain rfl : other = tree := Option.some.inj (isOther.symm.trans isTree)
  refine ⟨stream, other, lowered, fun third => ⟨fun read => read.unique readable.whole, ?_⟩, runs⟩
  rintro rfl
  exact readable.whole

theorem term?_range {arguments : List Expr} {terms : List Term} {tree : Term}
    (free : table.lookup "range" = none) (trees : terms? table arguments = some terms)
    (known : builtinTerm? "range" terms = some tree) :
    term? table (.call (.name "range") arguments []) = some tree := by
  simp [term?, trees, namedCall, free, known]

theorem run?_zero (words : String → Word) : (Term.literal "0").run? words = some 0 := by
  rw [Term.run?, show numeral? "0" = some 0 by decide]
  rfl

/-- Where `range` is not bound to anything else, a call of it whose arguments keep their values is
written as a sequence. With one or two arguments it is the one that the call stands for. With a step
it is that one if and only if the step is positive or the sequence goes nowhere. -/
theorem range_written_iff_positive (context : Context) (free : table.lookup "range" = none)
    {start stop step : Expr} {first last width : Int} (startKept : Keeps values words start first)
    (stopKept : Keeps values words stop last) (stepKept : Keeps values words step width)
    (nonzero : width ≠ 0) :
    (∃ sequence, WrittenAs context table words [stop] sequence ∧
      sequence.map BitVec.toInt = progression 0 last 1) ∧
    (∃ sequence, WrittenAs context table words [start, stop] sequence ∧
      sequence.map BitVec.toInt = progression first last 1) ∧
    ∃ sequence, WrittenAs context table words [start, stop, step] sequence ∧
      (sequence.map BitVec.toInt = progression first last width ↔ 0 < width ∨ first = last) := by
  obtain ⟨startTree, startWord, isStart, startRuns, rfl⟩ := startKept.exists_run table
  obtain ⟨stopTree, stopWord, isStop, stopRuns, rfl⟩ := stopKept.exists_run table
  obtain ⟨stepTree, stepWord, isStep, stepRuns, rfl⟩ := stepKept.exists_run table
  obtain ⟨sequence, found, same⟩ := exists_stepBy startWord stopWord nonzero
  refine ⟨⟨upTo 0 stopWord, ?_, map_toInt_upTo 0 stopWord⟩,
    ⟨upTo startWord stopWord, ?_, map_toInt_upTo startWord stopWord⟩, ⟨sequence, ?_, same⟩⟩
  · have kept : ∀ argument ∈ [stop], ∃ number, Keeps values words argument number := by
      simpa using ⟨_, stopKept⟩
    have trees : terms? table [stop] = some [stopTree] := by simp [terms?, isStop]
    refine writtenAs_of_term context kept (term?_range free trees rfl) ?_
    rw [Term.sequence?, run?_zero, stopRuns]
    rfl
  · have kept : ∀ argument ∈ [start, stop], ∃ number, Keeps values words argument number := by
      simpa using ⟨⟨_, startKept⟩, ⟨_, stopKept⟩⟩
    have trees : terms? table [start, stop] = some [startTree, stopTree] := by
      simp [terms?, isStart, isStop]
    refine writtenAs_of_term context kept (term?_range free trees rfl) ?_
    rw [Term.sequence?, startRuns, stopRuns]
    rfl
  · have kept : ∀ argument ∈ [start, stop, step],
        ∃ number, Keeps values words argument number := by
      simpa using ⟨⟨_, startKept⟩, ⟨_, stopKept⟩, ⟨_, stepKept⟩⟩
    have trees : terms? table [start, stop, step] = some [startTree, stopTree, stepTree] := by
      simp [terms?, isStart, isStop, isStep]
    refine writtenAs_of_term context kept (term?_range free trees rfl) ?_
    rw [Term.sequence?, Term.sequence?, startRuns, stopRuns, stepRuns]
    exact found

/-- With 5 for `n`, the numbers of `range(n, 0, -1)` go down to 1, and they are not those of the
sequence that is written for it. -/
theorem range_written_iff_positive_down :
    let values : String → Int := fun _ => 5
    let words : String → Word := fun _ => 5
    let stop : Expr := .constant (.int "0")
    let step : Expr := .unaryOp "USub" (.constant (.int "1"))
    Keeps values words (.name "n") 5 ∧ Keeps values words stop 0 ∧ Keeps values words step (-1) ∧
      progression 5 0 (-1) = [5, 4, 3, 2, 1] ∧
      ∃ sequence, WrittenAs (.sync "f") Table.new words [.name "n", stop, step] sequence ∧
        sequence.map BitVec.toInt ≠ [5, 4, 3, 2, 1] := by
  intro values words stop step
  have free : Table.new.lookup "range" = none := rfl
  have startKept : Keeps values words (.name "n") 5 := keeps_name (by decide) rfl
  have stopKept : Keeps values words stop 0 := keeps_numeral (by decide) (by decide)
  have oneKept : Keeps values words (.constant (.int "1")) 1 :=
    keeps_numeral (by decide) (by decide)
  have stepKept : Keeps values words step (-1) := oneKept.negated (by decide)
  have down : progression 5 0 (-1) = [5, 4, 3, 2, 1] := by simp [progression]
  obtain ⟨_, _, sequence, written, same⟩ :=
    range_written_iff_positive (.sync "f") free startKept stopKept stepKept (by decide)
  refine ⟨startKept, stopKept, stepKept, down, sequence, written, ?_⟩
  rw [← down, Ne, same]
  decide

end Lower

end Oxide
