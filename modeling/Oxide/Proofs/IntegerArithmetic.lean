/-
This file proves which arithmetic keeps its value. An expression of whole numbers is evaluated on
numbers without a bound, and the tree that its lowering is read as on words. If every number on the
way has a word, the two agree on all operators but two: a quotient is rounded down only if its
divisor is positive or leaves no remainder, and a remainder has the sign of its divisor only if the
dividend has it too. At the innermost operator that breaks its condition the value is lost.
-/

import Oxide.Proofs.OperatorStructure
import Oxide.Proofs.Words

namespace Oxide

/-! ### Evaluation on numbers -/

/-- Appends a decimal digit to a number. -/
def appendDigit? (number : Nat) (c : Char) : Option Nat :=
  if c.isDigit then some (10 * number + (c.toNat - '0'.toNat)) else none

/-- The number that a text of decimal digits spells. -/
def numeral? (text : String) : Option Nat :=
  if text.toList = [] then none else text.toList.foldlM appendDigit? 0

/-- An operator between two numbers. Quotients are rounded down, and remainders go with them. -/
def binaryValue? : String → Int → Int → Option Int
  | "Add", left, right => some (left + right)
  | "Sub", left, right => some (left - right)
  | "Mult", left, right => some (left * right)
  | "FloorDiv", left, right => if right = 0 then none else some (left.fdiv right)
  | "Mod", left, right => if right = 0 then none else some (left.fmod right)
  | "LShift", left, right => if right < 0 then none else some (left * 2 ^ right.toNat)
  | "RShift", left, right => if right < 0 then none else some (left.fdiv (2 ^ right.toNat))
  | "BitOr", left, right => some (Int.lor left right)
  | "BitXor", left, right => some (Int.xor left right)
  | "BitAnd", left, right => some (Int.land left right)
  | _, _, _ => none

/-- An operator in front of a number. -/
def unaryValue? : String → Int → Option Int
  | "USub", number => some (-number)
  | "Invert", number => some (-number - 1)
  | _, _ => none

/-- The names of constants, which hold no number. -/
def constantNames : List String := ["True", "False", "None"]

/-- The value of an expression of whole numbers, where the names have the given values. -/
def Expr.value? (values : String → Int) : Expr → Option Int
  | .constant (.int text) => (numeral? text).map fun digits : Nat => (digits : Int)
  | .name id => if id ∈ constantNames then none else some (values id)
  | .binOp left op right => do
    binaryValue? op (← left.value? values) (← right.value? values)
  | .unaryOp op value => do
    unaryValue? op (← value.value? values)
  | _ => none

/-- Whether a node has a value that a word can hold, and shifts by less than the width of a word. -/
def Expr.Proper (values : String → Int) (node : Expr) : Prop :=
  (∃ number, node.value? values = some number ∧ Fits number) ∧
    ∀ left op right, node = .binOp left op right → op ∈ ["LShift", "RShift"] →
      ∀ count ∈ right.value? values, count < 64

/-! ### Evaluation on words -/

/-- Runs the tree of an expression on words, where the variables hold the given ones. -/
def Grammar.Term.run? (words : String → Word) : Term → Option Word
  | .literal text => do Word.checked (← numeral? text)
  | .path [name] => some (words name)
  | .unary sign operand => do Word.unary? sign (← operand.run? words)
  | .binary sign left right => do Word.binary? sign (← left.run? words) (← right.run? words)
  | .method receiver "div_euclid" [argument] => do
    Word.quotient? (← receiver.run? words) (← argument.run? words)
  | _ => none

namespace Lower

open Grammar Word

/-! ### One operator -/

/-- Whether an operator keeps its value. -/
def KeepsValue (op : String) (left right : Int) : Prop :=
  (op = "FloorDiv" → 0 < right ∨ right ∣ left) ∧ (op = "Mod" → ExactRemainder left right)

variable {words : String → Word} {left right : Term} {first second : Word}

/-- A sign between terms that have run is applied to their words. -/
theorem run?_binary (sign : String) (leftRuns : left.run? words = some first)
    (rightRuns : right.run? words = some second) :
    (Term.binary sign left right).run? words = Word.binary? sign first second := by
  rw [Term.run?, leftRuns, rightRuns]
  rfl

theorem run?_quotient (leftRuns : left.run? words = some first)
    (rightRuns : right.run? words = some second) :
    (Term.method left "div_euclid" [right]).run? words = Word.quotient? first second := by
  rw [Term.run?, leftRuns, rightRuns]
  rfl

/-- All operators but division and remainder keep the value whatever the signs are. -/
theorem keepsValue_of_ne {op : String} (notQuotient : op ≠ "FloorDiv") (notRemainder : op ≠ "Mod")
    (left right : Int) : KeepsValue op left right :=
  ⟨fun same => absurd same notQuotient, fun same => absurd same notRemainder⟩

/-- An operator gives the exact number where that fits, except for division and remainder, whose
signs matter. -/
theorem gives_binary_iff {op : String} {number : Int}
    (known : binaryValue? op first.toInt second.toInt = some number) (fits : Fits number)
    (below : op ∈ ["LShift", "RShift"] → second.toInt < 64)
    (leftRuns : left.run? words = some first) (rightRuns : right.run? words = some second) :
    ∃ form, binaryForm? op = some form ∧
      (Gives ((form left right).run? words) number ↔
        KeepsValue op first.toInt second.toInt) := by
  -- All operators but two keep their value, so that only a result has to be found for them.
  have always {sign : String} (same : binaryForm? op = some (.binary sign))
      (notQuotient : op ≠ "FloorDiv") (notRemainder : op ≠ "Mod")
      (gives : Gives (Word.binary? sign first second) number) :
      ∃ form, binaryForm? op = some form ∧
        (Gives ((form left right).run? words) number ↔
          KeepsValue op first.toInt second.toInt) := by
    refine ⟨_, same, iff_of_true ?_ (keepsValue_of_ne notQuotient notRemainder _ _)⟩
    rwa [run?_binary sign leftRuns rightRuns]
  unfold binaryValue? at known
  split at known
  · cases known
    exact always rfl (by decide) (by decide) (gives_checked fits)
  · cases known
    exact always rfl (by decide) (by decide) (gives_checked fits)
  · cases known
    exact always rfl (by decide) (by decide) (gives_checked fits)
  · split_ifs at known with divisor
    cases known
    refine ⟨_, rfl, ?_⟩
    rw [run?_quotient leftRuns rightRuns, gives_quotient_iff divisor fits]
    simp [KeepsValue]
  · split_ifs at known with divisor
    cases known
    refine ⟨_, rfl, ?_⟩
    rw [run?_binary "%" leftRuns rightRuns]
    change Gives (remainder? first second) _ ↔ _
    rw [gives_remainder_iff divisor]
    simp [KeepsValue]
  · split_ifs at known with negative
    cases known
    exact always rfl (by decide) (by decide)
      (gives_shifted (Int.not_lt.mp negative) (below (by decide)) (toInt_shiftLeft fits))
  · split_ifs at known with negative
    cases known
    exact always rfl (by decide) (by decide)
      (gives_shifted (Int.not_lt.mp negative) (below (by decide)) (toInt_sshiftRight _ _))
  · cases known
    exact always rfl (by decide) (by decide) (gives_some.mpr (toInt_or first second))
  · cases known
    exact always rfl (by decide) (by decide) (gives_some.mpr (toInt_xor first second))
  · cases known
    exact always rfl (by decide) (by decide) (gives_some.mpr (toInt_and first second))
  · cases known

/-- A sign in front gives the exact number where that fits. -/
theorem gives_unary {op : String} {operand : Term} {word : Word} {number : Int}
    (known : unaryValue? op word.toInt = some number) (fits : Fits number)
    (runs : operand.run? words = some word) :
    ∃ form, unaryForm? op = some form ∧ Gives ((form operand).run? words) number := by
  unfold unaryValue? at known
  split at known
  · cases known
    refine ⟨_, rfl, ?_⟩
    rw [Term.run?, runs]
    exact gives_checked fits
  · cases known
    refine ⟨_, rfl, ?_⟩
    rw [Term.run?, runs]
    exact gives_some.mpr (toInt_not word)
  · cases known

/-! ### Lowering -/

theorem isUnsigned_of_numeral {text : String} {number : Nat}
    (spelled : numeral? text = some number) : isUnsigned text := by
  unfold numeral? at spelled
  unfold isUnsigned
  split at spelled
  · cases spelled
  · cases characters : text.toList with
    | nil => contradiction
    | cons c rest =>
      rw [characters, List.foldlM_cons] at spelled
      have digit : c.isDigit := by
        by_contra notDigit
        rw [appendDigit?, if_neg notDigit] at spelled
        cases spelled
      have notPlus : c ≠ '+' := by
        rintro rfl
        exact absurd digit (by decide)
      have notMinus : c ≠ '-' := by
        rintro rfl
        exact absurd digit (by decide)
      simp [notPlus, notMinus]

/-- What has a value keeps its structure. -/
theorem keepsStructure_of_value {values : String → Int} {node : Expr} {number : Int}
    (known : node.value? values = some number) : keepsStructure node := by
  unfold Expr.value? at known
  split at known
  · obtain ⟨_, spelled, _⟩ := Option.map_eq_some_iff.mp known
    exact isUnsigned_of_numeral spelled
  · rfl
  · rfl
  · rfl
  · cases known

/-- All operators with a value but the division are written as signs. -/
theorem binarySign_of_value {op : String} {first second number : Int}
    (known : binaryValue? op first second = some number) :
    op = "FloorDiv" ∨ binaryMethod? op = none ∧ ∃ sign, binarySign? op = some sign := by
  unfold binaryValue? at known
  split at known
  case h_4 => exact .inl rfl
  case h_11 => cases known
  all_goals exact .inr ⟨rfl, _, rfl⟩

theorem unarySign_of_value {op : String} {value number : Int}
    (known : unaryValue? op value = some number) : ∃ sign, unarySign? op = some sign := by
  unfold unaryValue? at known
  split at known
  · exact ⟨_, rfl⟩
  · exact ⟨_, rfl⟩
  · cases known

variable {context : Context} {table : Table} {values : String → Int}

/-- An operator with a value can be lowered. -/
theorem exists_binary_eq_ok {whole leftExpr rightExpr : Expr} {op : String}
    {leftStream rightStream : Stream} {firstNumber secondNumber number : Int}
    (known : binaryValue? op firstNumber secondNumber = some number) :
    ∃ stream, binary whole ⟨leftExpr, .ok leftStream⟩ op ⟨rightExpr, .ok rightStream⟩ =
      .ok stream := by
  unfold binary
  obtain rfl | ⟨noMethod, sign, signed⟩ := binarySign_of_value known
  · exact ⟨_, rfl⟩
  · rw [noMethod, signed]
    exact ⟨_, rfl⟩

/-- Only numbers, names and operators have a value. -/
theorem value?_eq_none {value : Expr} (noConstant : ∀ text, value = .constant (.int text) → False)
    (noName : ∀ id, value = .name id → False)
    (noBinary : ∀ left op right, value = .binOp left op right → False)
    (noUnary : ∀ op operand, value = .unaryOp op operand → False) : value.value? values = none := by
  unfold Expr.value?
  split
  · exact (noConstant _ rfl).elim
  · exact (noName _ rfl).elim
  · exact (noBinary _ _ _ rfl).elim
  · exact (noUnary _ _ rfl).elim
  · rfl

/-- What has a value can be lowered, by induction over the expression. -/
theorem exists_expr_eq_ok {value : Expr} {number : Int}
    (known : value.value? values = some number) :
    ∃ stream, expr context table value = .ok stream := by
  induction value using Expr.value?.induct generalizing number with
  | case1 text => exact ⟨_, by rw [expr]⟩
  | case2 id _ => exact ⟨_, by rw [expr]⟩
  | case3 id _ => exact ⟨_, by rw [expr]⟩
  | case4 left op right leftHypothesis rightHypothesis =>
    rw [Expr.value?] at known
    obtain ⟨first, leftKnown, known⟩ := Option.bind_eq_some_iff.mp known
    obtain ⟨second, rightKnown, known⟩ := Option.bind_eq_some_iff.mp known
    obtain ⟨leftStream, leftLowered⟩ := leftHypothesis leftKnown
    obtain ⟨rightStream, rightLowered⟩ := rightHypothesis rightKnown
    rw [expr, leftLowered, rightLowered]
    exact exists_binary_eq_ok known
  | case5 op value inductionHypothesis =>
    rw [Expr.value?] at known
    obtain ⟨operand, operandKnown, known⟩ := Option.bind_eq_some_iff.mp known
    obtain ⟨stream, lowered⟩ := inductionHypothesis operandKnown
    obtain ⟨sign, signed⟩ := unarySign_of_value known
    rw [expr, signed, lowered]
    exact ⟨_, rfl⟩
  | case6 value noConstant noName noBinary noUnary =>
    rw [value?_eq_none noConstant noName noBinary noUnary] at known
    cases known

/-! ### Whole expressions -/

/-- Whether the operator of a node keeps its value. -/
def Exact (values : String → Int) : Expr → Prop
  | .binOp left op right =>
    ∀ first ∈ left.value? values, ∀ second ∈ right.value? values, KeepsValue op first second
  | _ => True

/-- What an operand gives: its nodes keep their values, so it runs to a word with its value. -/
theorem exists_run {operand : Expr}
    (kept : ∃ tree number, term? table operand = some tree ∧
      operand.value? values = some number ∧
        (Gives (tree.run? words) number ↔ Exact values operand))
    (exact : Exact values operand) :
    ∃ tree word, term? table operand = some tree ∧ tree.run? words = some word ∧
      operand.value? values = some word.toInt := by
  obtain ⟨tree, number, isTree, known, gives⟩ := kept
  obtain ⟨word, runs, rfl⟩ := gives.mpr exact
  exact ⟨tree, word, isTree, runs, known⟩

theorem self_mem_nodes (value : Expr) : value ∈ value.nodes := by
  unfold Expr.nodes
  split <;> exact List.mem_cons_self

theorem gives_iff_exact {value : Expr} (proper : ∀ node ∈ value.nodes, node.Proper values)
    (agrees : ∀ id, .name id ∈ value.nodes → (words (identName id)).toInt = values id)
    (inside : ∀ node ∈ value.nodes.tail, Exact values node) :
    ∃ tree number, term? table value = some tree ∧ value.value? values = some number ∧
      (Gives (tree.run? words) number ↔ Exact values value) := by
  obtain ⟨⟨number, known, fits⟩, below⟩ := proper value (self_mem_nodes value)
  induction value using Expr.value?.induct generalizing number with
  | case1 text =>
    refine ⟨_, number, by rw [term?], known, iff_of_true ?_ trivial⟩
    obtain ⟨digits, spelled, rfl⟩ := Option.map_eq_some_iff.mp known
    rw [constantTerm, Term.run?, spelled, Option.bind_eq_bind, Option.bind_some]
    exact gives_checked fits
  | case2 id isConstant =>
    rw [Expr.value?, if_pos isConstant] at known
    cases known
  | case3 id notConstant =>
    refine ⟨_, number, by rw [term?], known, iff_of_true ?_ trivial⟩
    rw [Expr.value?, if_neg notConstant] at known
    cases known
    have isVariable : nameTerm id = .path [identName id] := by
      rw [nameTerm, if_neg, if_neg]
      · rintro rfl
        exact notConstant (by decide)
      · rintro rfl
        exact notConstant (by decide)
    rw [isVariable, Term.run?, gives_some]
    exact agrees id (self_mem_nodes _)
  | case4 left op right leftHypothesis rightHypothesis =>
    rw [Expr.nodes, List.forall_mem_cons, List.forall_mem_append] at proper
    rw [Expr.nodes, List.tail_cons, List.forall_mem_append] at inside
    obtain ⟨⟨_, leftKnown, leftFits⟩, leftBelow⟩ := proper.2.1 left (self_mem_nodes left)
    obtain ⟨⟨_, rightKnown, rightFits⟩, rightBelow⟩ := proper.2.2 right (self_mem_nodes right)
    obtain ⟨leftTree, first, isLeft, leftRuns, leftKnown⟩ := exists_run
      (leftHypothesis proper.2.1
        (fun id used => agrees id (List.mem_cons_of_mem _ (List.mem_append_left _ used)))
        (fun node within => inside.1 node (List.mem_of_mem_tail within)) leftBelow _ leftKnown
        leftFits) (inside.1 left (self_mem_nodes left))
    obtain ⟨rightTree, second, isRight, rightRuns, rightKnown⟩ := exists_run
      (rightHypothesis proper.2.2
        (fun id used => agrees id (List.mem_cons_of_mem _ (List.mem_append_right _ used)))
        (fun node within => inside.2 node (List.mem_of_mem_tail within)) rightBelow _ rightKnown
        rightFits) (inside.2 right (self_mem_nodes right))
    have computed : binaryValue? op first.toInt second.toInt = some number := by
      rwa [Expr.value?, leftKnown, rightKnown] at known
    obtain ⟨form, isForm, gives⟩ := gives_binary_iff computed fits
      (fun isShift => below left op right rfl isShift _ rightKnown) leftRuns rightRuns
    refine ⟨form leftTree rightTree, number, ?_, known, gives.trans ?_⟩
    · rw [term?, isForm, isLeft, isRight]
      rfl
    · simp [Exact, leftKnown, rightKnown]
  | case5 op value inductionHypothesis =>
    rw [Expr.nodes, List.forall_mem_cons] at proper
    rw [Expr.nodes, List.tail_cons] at inside
    obtain ⟨⟨_, operandKnown, operandFits⟩, operandBelow⟩ :=
      proper.2 value (self_mem_nodes value)
    obtain ⟨tree, word, isTree, runs, operandKnown⟩ := exists_run
      (inductionHypothesis proper.2 (fun id used => agrees id (List.mem_cons_of_mem _ used))
        (fun node within => inside node (List.mem_of_mem_tail within)) operandBelow _ operandKnown
        operandFits) (inside value (self_mem_nodes value))
    have computed : unaryValue? op word.toInt = some number := by
      rwa [Expr.value?, operandKnown] at known
    obtain ⟨form, isForm, gives⟩ := gives_unary computed fits runs
    refine ⟨form tree, number, ?_, known, iff_of_true gives trivial⟩
    rw [term?, isForm, isTree]
    rfl
  | case6 value noConstant noName noBinary noUnary =>
    rw [value?_eq_none noConstant noName noBinary noUnary] at known
    cases known

/-- An expression of whole numbers is lowered, and its stream is read as one tree. If the operators
inside keep their values, the tree gives the value of the expression exactly if the outermost
operator keeps it as well. -/
theorem expr_gives_value_iff_exact (context : Context) (table : Table) {value : Expr}
    (proper : ∀ node ∈ value.nodes, node.Proper values)
    (agrees : ∀ id, .name id ∈ value.nodes → (words (identName id)).toInt = values id)
    (inside : ∀ node ∈ value.nodes.tail, Exact values node) :
    ∃ stream tree number, expr context table value = .ok stream ∧
      (∀ other, Reads 0 stream.bare other ↔ other = tree) ∧
      value.value? values = some number ∧
      (Gives (tree.run? words) number ↔ Exact values value) := by
  have kept : ∀ node ∈ value.nodes, keepsStructure node := by
    intro node within
    obtain ⟨⟨_, known, _⟩, _⟩ := proper node within
    exact keepsStructure_of_value known
  obtain ⟨tree, number, isTree, known, gives⟩ := gives_iff_exact proper agrees inside
  obtain ⟨stream, lowered⟩ := exists_expr_eq_ok known
  obtain ⟨other, isOther, readable⟩ := readsBackRules.sound value stream lowered kept
  obtain rfl : other = tree := Option.some.inj (isOther.symm.trans isTree)
  refine ⟨stream, other, number, lowered, fun third => ⟨fun read => ?_, ?_⟩, known, gives⟩
  · exact read.unique readable.whole
  · rintro rfl
    exact readable.whole

/-- With 7 for `a` and 2 for `b`, the value of `(-a // b + 1) % b` is 1. The quotient inside is the
right one, but the remainder is not. -/
theorem expr_gives_value_iff_exact_remainder :
    let values : String → Int := fun id => if id = "a" then 7 else 2
    let words : String → Word := fun name => if name = "a" then 7 else 2
    let value : Expr :=
      .binOp (.binOp (.binOp (.unaryOp "USub" (.name "a")) "FloorDiv" (.name "b")) "Add"
        (.constant (.int "1"))) "Mod" (.name "b")
    (∀ node ∈ value.nodes, node.Proper values) ∧
      (∀ node ∈ value.nodes.tail, Exact values node) ∧ ¬ Exact values value ∧
      ∃ stream tree, expr (.sync "f") Table.new value = .ok stream ∧
        (∀ other, Reads 0 stream.bare other ↔ other = tree) ∧
        value.value? values = some 1 ∧ ¬ Gives (tree.run? words) 1 := by
  intro values words value
  have proper : ∀ node ∈ value.nodes, node.Proper values := by
    simp only [value, Expr.nodes, List.cons_append, List.nil_append, List.forall_mem_cons]
    refine ⟨⟨⟨_, rfl, by decide⟩, ?_⟩, ⟨⟨_, rfl, by decide⟩, ?_⟩, ⟨⟨_, rfl, by decide⟩, ?_⟩,
      ⟨⟨_, rfl, by decide⟩, ?_⟩, ⟨⟨_, rfl, by decide⟩, ?_⟩, ⟨⟨_, rfl, by decide⟩, ?_⟩,
      ⟨⟨_, rfl, by decide⟩, ?_⟩, ⟨⟨_, rfl, by decide⟩, ?_⟩, List.forall_mem_nil _⟩
    all_goals rintro _ _ _ ⟨⟩
    all_goals exact (absurd · (by decide))
  have inside : ∀ node ∈ value.nodes.tail, Exact values node := by
    simp only [value, Expr.nodes, List.cons_append, List.nil_append, List.tail_cons,
      List.forall_mem_cons]
    refine ⟨?_, ?_, trivial, trivial, trivial, trivial, trivial, List.forall_mem_nil _⟩
    · rintro _ ⟨⟩ _ ⟨⟩
      exact keepsValue_of_ne (by decide) (by decide) _ _
    · rintro _ ⟨⟩ _ ⟨⟩
      exact ⟨fun _ => .inl (by decide), (absurd · (by decide))⟩
  have inexact : ¬ Exact values value := by
    intro exact
    exact absurd ((exact (-3) rfl 2 rfl).2 rfl) (by decide)
  have agrees : ∀ id, .name id ∈ value.nodes → (words (identName id)).toInt = values id := by
    intro id used
    obtain rfl | rfl : id = "a" ∨ id = "b" := by simpa [value, Expr.nodes] using used
    · rfl
    · rfl
  refine ⟨proper, inside, inexact, ?_⟩
  obtain ⟨stream, tree, number, lowered, reads, known, gives⟩ :=
    expr_gives_value_iff_exact (.sync "f") Table.new proper agrees inside
  obtain rfl : 1 = number := Option.some.inj known
  exact ⟨stream, tree, lowered, reads, rfl, fun given => inexact (gives.mp given)⟩

end Lower

end Oxide
