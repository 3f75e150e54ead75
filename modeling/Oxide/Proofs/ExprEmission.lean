/-
This file says once what the lowering of an expression emits. A lowering that succeeds has lowered
every part, and its stream is put together from the streams of the parts by one rule for each
form of expression. `ExprRules` lists these rules for an arbitrary property of an expression and
its stream, and `ExprRules.sound` is the induction over them: a property that follows the rules
holds of every expression that is lowered. Nothing behind this file opens the lowering of
expressions again.
-/

import Mathlib.Data.List.Forall2
import Oxide.Lower.Expr

namespace Oxide

/-! ### Attempts that succeed -/

namespace Attempt

variable {Cause First Second : Type}

theorem inside_eq_ok {place : String} {attempt : Attempt Cause First} {result : First} :
    inside place attempt = .ok result ↔ attempt = .ok result := by
  cases attempt with
  | ok value => rfl
  | error failure => simp [inside]

/-- Steps one behind the other succeed if each of them does. -/
theorem bind_eq_ok {attempt : Attempt Cause First} {next : First → Attempt Cause Second}
    {result : Second} :
    attempt >>= next = .ok result ↔ ∃ value, attempt = .ok value ∧ next value = .ok result := by
  cases attempt with
  | ok value => simp [bind, Except.bind]
  | error failure => simp [bind, Except.bind]

theorem map_eq_ok {attempt : Attempt Cause First} {change : First → Second} {result : Second} :
    change <$> attempt = .ok result ↔ ∃ value, attempt = .ok value ∧ change value = result := by
  cases attempt with
  | ok value => simp [Functor.map, Except.map]
  | error failure => simp [Functor.map, Except.map]

theorem pure_eq_ok {value result : First} :
    (pure value : Attempt Cause First) = .ok result ↔ value = result := by
  simp [pure, Except.pure]

theorem fail_ne_ok {cause : Cause} {result : First} :
    (fail cause : Attempt Cause First) ≠ .ok result := by
  simp [fail]

end Attempt

namespace Lower

open Attempt

theorem unsupportedExpr_ne_ok {Value : Type} {reason : String} {value : Expr} {result : Value} :
    (Lowering.unsupportedExpr reason value : Lowering Value) ≠ .ok result :=
  fail_ne_ok

theorem unsupportedStmt_ne_ok {Value : Type} {reason : String} {value : Stmt} {result : Value} :
    (Lowering.unsupportedStmt reason value : Lowering Value) ≠ .ok result :=
  fail_ne_ok

/-! ### Comparisons -/

/-- What one comparison emits, given the streams of its two operands. -/
inductive Comparison (left : Expr) (first : Stream) : String → Expr → Stream → Stream → Prop where
  | contains (right : Expr) (second : Stream) :
      Comparison left first "In" right second
        (method (operand right second) "contains" (Stream.join (Stream.punct [] "&") ++ first))
  | excludes (right : Expr) (second : Stream) :
      Comparison left first "NotIn" right second
        (Stream.join (Stream.punct [] "!") ++
          method (operand right second) "contains" (Stream.join (Stream.punct [] "&") ++ first))
  | isNone (right : Expr) (second : Stream) (nothing : right.isNone) :
      Comparison left first "Is" right second (method (operand left first) "is_none" [])
  | isSome (right : Expr) (second : Stream) (nothing : right.isNone) :
      Comparison left first "IsNot" right second (method (operand left first) "is_some" [])
  | signed (op : String) (right : Expr) (second : Stream) (sign : String)
      (notNone : ¬ (op = "Is" ∧ right.isNone)) (notSome : ¬ (op = "IsNot" ∧ right.isNone))
      (signed : comparisonSign? op = some sign) :
      Comparison left first op right second
        ((operand left first).punct sign ++ operand right second)

/-- What the comparisons of a chain emit, where each right operand is compared with the next. -/
inductive Comparisons : Expr → Stream → List String → List Expr → List Stream → List Stream → Prop
    where
  | nil (left : Expr) (first : Stream) : Comparisons left first [] [] [] []
  | cons {left : Expr} {first : Stream} {op : String} {right : Expr} {second piece : Stream}
      {ops : List String} {rights : List Expr} {streams pieces : List Stream}
      (single : Comparison left first op right second piece)
      (rest : Comparisons right second ops rights streams pieces) :
      Comparisons left first (op :: ops) (right :: rights) (second :: streams) (piece :: pieces)

/-- The pieces of a chain put together, where a single one needs no parentheses. -/
def conjunction : List Stream → Stream
  | [single] => single
  | several => separated "&&" (several.map parenthesized)

/-! ### Calls of known functions -/

/-- What the call of a known function emits, given the streams of its arguments. -/
inductive SpecialCall (table : Table) : Expr → List Expr → List Stream → Stream → Prop where
  | print (free : table.lookup "print" = none) (arguments : List Expr) (streams : List Stream) :
      SpecialCall table (.name "print") arguments streams (printLine streams)
  | len (free : table.lookup "len" = none) (value : Expr) (stream : Stream) :
      SpecialCall table (.name "len") [value] [stream] (method (operand value stream) "len" [])
  | str (free : table.lookup "str" = none) (value : Expr) (stream : Stream) :
      SpecialCall table (.name "str") [value] [stream]
        (method (operand value stream) "to_string" [])
  | rangeTo (free : table.lookup "range" = none) (stop : Expr) (stopStream : Stream) :
      SpecialCall table (.name "range") [stop] [stopStream]
        (range (Stream.literal [] "0") (operand stop stopStream))
  | rangeFrom (free : table.lookup "range" = none) (start stop : Expr)
      (startStream stopStream : Stream) :
      SpecialCall table (.name "range") [start, stop] [startStream, stopStream]
        (range (operand start startStream) (operand stop stopStream))
  | rangeBy (free : table.lookup "range" = none) (start stop step : Expr)
      (startStream stopStream stepStream : Stream) :
      SpecialCall table (.name "range") [start, stop, step] [startStream, stopStream, stepStream]
        (method (range (operand start startStream) (operand stop stopStream)) "step_by"
          (((operand step stepStream).keyword "as").ident "usize"))

/-- Lists of one length are the two sides of a list of pairs. -/
theorem exists_pairs {expressions : List Expr} {streams : List Stream}
    (same : expressions.length = streams.length) :
    ∃ pairs : List (Expr × Stream),
      expressions = pairs.map Prod.fst ∧ streams = pairs.map Prod.snd :=
  ⟨expressions.zip streams, (List.map_fst_zip (Nat.le_of_eq same)).symm,
    (List.map_snd_zip (Nat.le_of_eq same.symm)).symm⟩

/-- The name of a known function and the number of its arguments say which rule emits the call. -/
theorem specialCall_of_knownCall {table : Table} {id : String} {arguments : List Expr}
    {streams : List Stream} {stream : Stream} (free : table.lookup id = none)
    (same : arguments.length = streams.length)
    (known : knownCall? id arguments streams = some stream) :
    SpecialCall table (.name id) arguments streams stream := by
  simp only [knownCall?] at known
  by_cases isPrint : id = "print"
  · subst isPrint
    obtain rfl := Option.some.inj known
    exact .print free arguments streams
  rw [if_neg isPrint] at known
  obtain ⟨pairs, rfl, rfl⟩ := exists_pairs same
  by_cases isLen : id = "len"
  · subst isLen
    match pairs, known with
    | [(value, inner)], known =>
      obtain rfl := Option.some.inj known
      exact .len free value inner
  rw [if_neg isLen] at known
  by_cases isStr : id = "str"
  · subst isStr
    match pairs, known with
    | [(value, inner)], known =>
      obtain rfl := Option.some.inj known
      exact .str free value inner
  rw [if_neg isStr] at known
  by_cases isRange : id = "range"
  · subst isRange
    match pairs, known with
    | [(stop, stopStream)], known =>
      obtain rfl := Option.some.inj known
      exact .rangeTo free stop stopStream
    | [(start, startStream), (stop, stopStream)], known =>
      obtain rfl := Option.some.inj known
      exact .rangeFrom free start stop startStream stopStream
    | [(start, startStream), (stop, stopStream), (step, stepStream)], known =>
      obtain rfl := Option.some.inj known
      exact .rangeBy free start stop step startStream stopStream stepStream
  rw [if_neg isRange] at known
  cases known

/-- A call that is special follows one of the rules for known functions. -/
theorem specialCall_of_some {table : Table} {function : Expr} {arguments : List Expr}
    {streams : List Stream} {stream : Stream} (same : arguments.length = streams.length)
    (known : specialCall? table function arguments streams = some stream) :
    SpecialCall table function arguments streams stream := by
  cases function with
  | name id =>
    rw [specialCall?] at known
    cases bound : table.lookup id with
    | none =>
      rw [bound] at known
      exact specialCall_of_knownCall bound same known
    | some symbol =>
      rw [bound] at known
      cases known
  | _ => cases known

/-! ### The rules -/

/-- The rules by which expressions emit, for a property of an expression and its stream. -/
structure ExprRules (context : Context) (table : Table) (property : Expr → Stream → Prop) :
    Prop where
  constant (value : Constant) : property (.constant value) (Lower.constant value)
  name (id : String) : property (.name id) (Lower.name id)
  binaryMethod (left : Expr) (op : String) (right : Expr) (name : String) (first second : Stream)
    (known : binaryMethod? op = some name) (leftHolds : property left first)
    (rightHolds : property right second) :
    property (.binOp left op right) (method (operand left first) name second)
  binarySign (left : Expr) (op : String) (right : Expr) (sign : String) (first second : Stream)
    (noMethod : binaryMethod? op = none) (known : binarySign? op = some sign)
    (leftHolds : property left first) (rightHolds : property right second) :
    property (.binOp left op right) ((operand left first).punct sign ++ operand right second)
  unary (op : String) (value : Expr) (sign stream : Stream) (known : unarySign? op = some sign)
    (valueHolds : property value stream) :
    property (.unaryOp op value) (sign ++ operand value stream)
  logical (op : String) (values : List Expr) (sign : String) (streams : List Stream)
    (known : logicalSign? op = some sign) (valuesHold : List.Forall₂ property values streams) :
    property (.boolOp op values) (separated sign (List.zipWith operand values streams))
  compare (left : Expr) (ops : List String) (rights : List Expr) (first : Stream)
    (streams pieces : List Stream) (nonempty : ops ≠ [])
    (emitted : Comparisons left first ops rights streams pieces)
    (leftHolds : property left first) (rightsHold : List.Forall₂ property rights streams) :
    property (.compare left ops rights) (conjunction pieces)
  special (function : Expr) (arguments : List Expr) (streams : List Stream) (stream : Stream)
    (known : SpecialCall table function arguments streams stream)
    (argumentsHold : List.Forall₂ property arguments streams) :
    property (.call function arguments []) stream
  call (function : Expr) (arguments : List Expr) (callee : Stream) (streams : List Stream)
    (unknown : specialCall? table function arguments streams = none)
    (functionHolds : property function callee)
    (argumentsHold : List.Forall₂ property arguments streams) :
    property (.call function arguments [])
      ((Stream.join (operand function callee)).group "(" ")" (Stream.join (Stream.comma streams)))
  field (value : Expr) (attr : String) (stream : Stream) (valueHolds : property value stream) :
    property (.attribute value attr) ((dotted (operand value stream)).ident attr)
  subscript (value slice : Expr) (stream index : Stream) (valueHolds : property value stream)
    (sliceHolds : property slice index) :
    property (.subscript value slice)
      ((Stream.join (operand value stream)).group "[" "]" (Stream.join index))
  list (items : List Expr) (streams : List Stream)
    (itemsHold : List.Forall₂ property items streams) :
    property (.list items)
      ((Stream.bang [] "vec").group "[" "]" (Stream.join (Stream.comma streams)))
  tuple (items : List Expr) (streams : List Stream)
    (itemsHold : List.Forall₂ property items streams) :
    property (.tuple items)
      (parenthesized (if streams.length = 1 then (Stream.comma streams).punct ","
        else Stream.comma streams))
  await (value : Expr) (stream : Stream) (waiting : context.isAsync)
    (valueHolds : property value stream) :
    property (.await value) ((dotted (operand value stream)).keyword "await")

/-! ### Lists of parts -/

/-- What holds of each stream of a list, whatever the expression beside it is. -/
theorem forall_mem_of_forall₂ {Item : Type} {property : Stream → Prop} {items : List Item}
    {streams : List Stream} (all : List.Forall₂ (fun _ stream => property stream) items streams) :
    ∀ stream ∈ streams, property stream := by
  induction all with
  | nil => exact List.forall_mem_nil _
  | cons first _ inductionHypothesis => exact List.forall_mem_cons.mpr ⟨first, inductionHypothesis⟩

/-- A list is lowered only if each of its parts is. -/
theorem forall₂_of_collect {place : String} {outcome : Part → Lowering Stream} {number : Nat}
    {parts : List Part} {streams : List Stream}
    (collected : collect place outcome number parts = .ok streams) :
    List.Forall₂ (fun part stream => outcome part = .ok stream) parts streams := by
  induction parts generalizing number streams with
  | nil =>
    cases collected
    exact .nil
  | cons part rest inductionHypothesis =>
    simp only [collect, bind_eq_ok, inside_eq_ok, pure_eq_ok] at collected
    obtain ⟨stream, single, later, rest, rfl⟩ := collected
    exact .cons single (inductionHypothesis rest)

/-- An operand that succeeds is the stream of its part, in parentheses where it needs them. -/
theorem operand_eq_ok {part : Part} {stream : Stream} :
    part.operand = .ok stream ↔
      ∃ inner, part.outcome = .ok inner ∧ Lower.operand part.expr inner = stream :=
  map_eq_ok

/-- A part whose expression stands for nothing never fails. -/
def Part.Sound (part : Part) : Prop :=
  part.expr.isNone → ∃ stream, part.outcome = .ok stream

/-- A test of membership lowers the right operand first. -/
theorem containment_eq_ok {left right : Part} {stream : Stream} :
    containment left right = .ok stream ↔
      ∃ second, right.outcome = .ok second ∧ ∃ first, left.outcome = .ok first ∧
        method (operand right.expr second) "contains" (Stream.join (Stream.punct [] "&") ++ first) =
          stream := by
  simp only [containment, bind_eq_ok, operand_eq_ok, pure_eq_ok]
  constructor
  · rintro ⟨_, ⟨second, lowered, rfl⟩, rest⟩
    exact ⟨second, lowered, rest⟩
  · rintro ⟨second, lowered, rest⟩
    exact ⟨_, ⟨second, lowered, rfl⟩, rest⟩

/-- A comparison that is lowered has lowered both operands and follows one of the rules. -/
theorem comparison_of_ok {whole : Expr} {left right : Part} {op : String} {piece : Stream}
    (sound : right.Sound) (compared : comparison whole left op right = .ok piece) :
    ∃ first second, left.outcome = .ok first ∧ right.outcome = .ok second ∧
      Comparison left.expr first op right.expr second piece := by
  rw [comparison] at compared
  by_cases isIn : op = "In"
  · subst isIn
    obtain ⟨second, rightLowered, first, leftLowered, rfl⟩ := containment_eq_ok.mp compared
    exact ⟨first, second, leftLowered, rightLowered, .contains _ _⟩
  rw [if_neg isIn] at compared
  by_cases notIn : op = "NotIn"
  · subst notIn
    obtain ⟨_, contained, rest⟩ := bind_eq_ok.mp compared
    obtain ⟨second, rightLowered, first, leftLowered, rfl⟩ := containment_eq_ok.mp contained
    cases rest
    exact ⟨first, second, leftLowered, rightLowered, .excludes _ _⟩
  simp only [if_neg notIn, Bool.and_eq_true, decide_eq_true_eq] at compared
  -- What is compared with nothing is not shown, but it is lowered all the same.
  by_cases isNone : op = "Is" ∧ right.expr.isNone
  · rw [if_pos isNone] at compared
    obtain ⟨rfl, nothing⟩ := isNone
    obtain ⟨_, receiver, rest⟩ := bind_eq_ok.mp compared
    obtain ⟨first, leftLowered, rfl⟩ := operand_eq_ok.mp receiver
    obtain ⟨second, rightLowered⟩ := sound nothing
    cases rest
    exact ⟨first, second, leftLowered, rightLowered, .isNone _ _ nothing⟩
  rw [if_neg isNone] at compared
  by_cases isSome : op = "IsNot" ∧ right.expr.isNone
  · rw [if_pos isSome] at compared
    obtain ⟨rfl, nothing⟩ := isSome
    obtain ⟨_, receiver, rest⟩ := bind_eq_ok.mp compared
    obtain ⟨first, leftLowered, rfl⟩ := operand_eq_ok.mp receiver
    obtain ⟨second, rightLowered⟩ := sound nothing
    cases rest
    exact ⟨first, second, leftLowered, rightLowered, .isSome _ _ nothing⟩
  rw [if_neg isSome] at compared
  cases signed : comparisonSign? op with
  | none =>
    rw [signed] at compared
    exact absurd compared unsupportedExpr_ne_ok
  | some sign =>
    simp only [signed, bind_eq_ok, operand_eq_ok, pure_eq_ok] at compared
    obtain ⟨_, ⟨first, leftLowered, rfl⟩, _, ⟨second, rightLowered, rfl⟩, rfl⟩ := compared
    exact ⟨first, second, leftLowered, rightLowered, .signed op _ _ sign isNone isSome signed⟩

/-- A chain that is lowered has lowered all operands, each of them once. -/
theorem comparisons_of_ok {whole : Expr} {number : Nat} {left : Part} {ops : List String}
    {rights : List Part} {pieces : List Stream} (nonempty : ops ≠ [])
    (same : ops.length = rights.length) (sound : ∀ right ∈ rights, right.Sound)
    (compared : comparisons whole number left ops rights = .ok pieces) :
    ∃ first streams, left.outcome = .ok first ∧
      List.Forall₂ (fun right stream => right.outcome = .ok stream) rights streams ∧
      Comparisons left.expr first ops (rights.map Part.expr) streams pieces := by
  induction ops generalizing number left rights pieces with
  | nil => exact absurd rfl nonempty
  | cons op ops inductionHypothesis =>
    obtain _ | ⟨right, rights⟩ := rights
    · cases same
    simp only [comparisons, bind_eq_ok, inside_eq_ok, pure_eq_ok] at compared
    obtain ⟨piece, single, later, rest, rfl⟩ := compared
    obtain ⟨first, second, leftLowered, rightLowered, emitted⟩ :=
      comparison_of_ok (sound right List.mem_cons_self) single
    obtain rfl | more := eq_or_ne ops []
    · obtain rfl := List.length_eq_zero_iff.mp (Nat.succ.inj same).symm
      cases rest
      exact ⟨first, [second], leftLowered, .cons rightLowered .nil, .cons emitted (.nil _ _)⟩
    · obtain ⟨_, streams, again, rightsLowered, chained⟩ := inductionHypothesis more
        (Nat.succ.inj same) (fun other member => sound other (List.mem_cons_of_mem _ member)) rest
      obtain rfl := Except.ok.inj (rightLowered.symm.trans again)
      exact ⟨first, second :: streams, leftLowered, .cons rightLowered rightsLowered,
        .cons emitted chained⟩

/-! ### Rule induction -/

variable {context : Context} {table : Table}

theorem parts_map_expr (items : List Expr) : (parts context table items).map Part.expr = items := by
  induction items with
  | nil => rfl
  | cons item rest inductionHypothesis => rw [parts, List.map_cons, inductionHypothesis]

/-- An expression that stands for nothing is always lowered. -/
theorem expr_of_isNone {value : Expr} (nothing : value.isNone) :
    ∃ stream, expr context table value = .ok stream := by
  unfold Expr.isNone at nothing
  split at nothing
  · exact ⟨Lower.constant .none, by rw [expr]⟩
  · exact ⟨Lower.name _, by rw [expr]⟩
  · exact absurd nothing Bool.false_ne_true

theorem parts_sound (items : List Expr) : ∀ part ∈ parts context table items, part.Sound := by
  induction items with
  | nil => simp [parts]
  | cons item rest inductionHypothesis =>
    rw [parts, List.forall_mem_cons]
    exact ⟨expr_of_isNone, inductionHypothesis⟩

/-- The pieces of a chain are put together as a conjunction. -/
theorem chain_of_ok {whole : Expr} {left : Part} {ops : List String} {rights : List Part}
    {stream : Stream} (chained : chain whole left ops rights = .ok stream) :
    ops ≠ [] ∧ ops.length = rights.length ∧
      ∃ pieces, comparisons whole 0 left ops rights = .ok pieces ∧ conjunction pieces = stream := by
  rw [chain] at chained
  by_cases malformed : ops.isEmpty || ops.length ≠ rights.length
  · rw [if_pos malformed] at chained
    exact absurd chained unsupportedExpr_ne_ok
  · rw [if_neg malformed] at chained
    have wellFormed : ops ≠ [] ∧ ops.length = rights.length := by simpa using malformed
    obtain ⟨pieces, compared, rest⟩ := bind_eq_ok.mp chained
    refine ⟨wellFormed.1, wellFormed.2, pieces, compared, ?_⟩
    split at rest <;> cases rest <;> simp [conjunction]

variable {property : Expr → Stream → Prop}

theorem zipWith_operand_of_forall₂ {items : List Expr} {streams : List Stream}
    (lowered : List.Forall₂ (fun part stream => Part.operand part = .ok stream)
      (parts context table items) streams) :
    ∃ inner, List.Forall₂ (fun part stream => Part.outcome part = .ok stream)
      (parts context table items) inner ∧ streams = List.zipWith operand items inner := by
  induction items generalizing streams with
  | nil =>
    cases lowered
    exact ⟨[], .nil, rfl⟩
  | cons item rest inductionHypothesis =>
    rw [parts] at lowered
    obtain _ | ⟨single, later⟩ := lowered
    obtain ⟨stream, itemLowered, rfl⟩ := operand_eq_ok.mp single
    obtain ⟨inner, restLowered, rfl⟩ := inductionHypothesis later
    exact ⟨stream :: inner, .cons itemLowered restLowered, rfl⟩

mutual

/-- A property that follows the rules holds of every expression that is lowered. -/
theorem ExprRules.sound (rules : ExprRules context table property) : (value : Expr) →
    (stream : Stream) → expr context table value = .ok stream → property value stream
  | .absent, stream, lowered => by
    rw [expr] at lowered
    exact absurd lowered fail_ne_ok
  | .constant value, stream, lowered => by
    rw [expr] at lowered
    cases lowered
    exact rules.constant value
  | .name id, stream, lowered => by
    rw [expr] at lowered
    cases lowered
    exact rules.name id
  | .binOp left op right, stream, lowered => by
    rw [expr, binary] at lowered
    cases methodName : binaryMethod? op with
    | some name =>
      simp only [methodName, bind_eq_ok, inside_eq_ok, operand_eq_ok, pure_eq_ok] at lowered
      obtain ⟨_, ⟨first, leftLowered, rfl⟩, second, rightLowered, rfl⟩ := lowered
      exact rules.binaryMethod left op right name first second methodName
        (rules.sound left first leftLowered) (rules.sound right second rightLowered)
    | none =>
      cases signed : binarySign? op with
      | some sign =>
        simp only [methodName, signed, bind_eq_ok, inside_eq_ok, operand_eq_ok, pure_eq_ok]
          at lowered
        obtain ⟨_, ⟨first, leftLowered, rfl⟩, _, ⟨second, rightLowered, rfl⟩, rfl⟩ := lowered
        exact rules.binarySign left op right sign first second methodName signed
          (rules.sound left first leftLowered) (rules.sound right second rightLowered)
      | none =>
        rw [methodName, signed] at lowered
        exact absurd lowered unsupportedExpr_ne_ok
  | .unaryOp op value, stream, lowered => by
    rw [expr] at lowered
    cases signed : unarySign? op with
    | some sign =>
      simp only [signed, bind_eq_ok, inside_eq_ok, pure_eq_ok] at lowered
      obtain ⟨inner, valueLowered, rfl⟩ := lowered
      exact rules.unary op value sign inner signed (rules.sound value inner valueLowered)
    | none =>
      rw [signed] at lowered
      exact absurd lowered unsupportedExpr_ne_ok
  | .boolOp op values, stream, lowered => by
    rw [expr] at lowered
    cases signed : logicalSign? op with
    | some sign =>
      rw [signed] at lowered
      obtain ⟨streams, collected, rfl⟩ := map_eq_ok.mp lowered
      obtain ⟨inner, valuesLowered, rfl⟩ :=
        zipWith_operand_of_forall₂ (forall₂_of_collect collected)
      exact rules.logical op values sign inner signed (rules.sound_all values inner valuesLowered)
    | none =>
      rw [signed] at lowered
      exact absurd lowered unsupportedExpr_ne_ok
  | .compare left ops rights, stream, lowered => by
    rw [expr] at lowered
    obtain ⟨nonempty, same, pieces, compared, rfl⟩ := chain_of_ok lowered
    obtain ⟨first, streams, leftLowered, rightsLowered, emitted⟩ :=
      comparisons_of_ok nonempty same (parts_sound rights) compared
    rw [parts_map_expr] at emitted
    exact rules.compare left ops rights first streams pieces nonempty emitted
      (rules.sound left first leftLowered) (rules.sound_all rights streams rightsLowered)
  | .call function arguments keywords, stream, lowered => by
    rw [expr] at lowered
    cases keywords with
    | cons => exact absurd lowered unsupportedExpr_ne_ok
    | nil =>
      simp only [List.isEmpty_nil, Bool.not_true, Bool.false_eq_true, if_false, bind_eq_ok,
        inside_eq_ok] at lowered
      obtain ⟨streams, collected, rest⟩ := lowered
      have argumentsHold := rules.sound_all arguments streams (forall₂_of_collect collected)
      cases known : specialCall? table function arguments streams with
      | some special =>
        rw [known] at rest
        cases rest
        exact rules.special function arguments streams stream
          (specialCall_of_some argumentsHold.length_eq known) argumentsHold
      | none =>
        simp only [known, bind_eq_ok, inside_eq_ok, pure_eq_ok] at rest
        obtain ⟨callee, functionLowered, rfl⟩ := rest
        exact rules.call function arguments callee streams known
          (rules.sound function callee functionLowered) argumentsHold
  | .attribute value attr, stream, lowered => by
    simp only [expr, bind_eq_ok, inside_eq_ok, pure_eq_ok] at lowered
    obtain ⟨inner, valueLowered, rfl⟩ := lowered
    exact rules.field value attr inner (rules.sound value inner valueLowered)
  | .subscript value slice, stream, lowered => by
    simp only [expr, bind_eq_ok, inside_eq_ok, pure_eq_ok] at lowered
    obtain ⟨inner, valueLowered, index, sliceLowered, rfl⟩ := lowered
    exact rules.subscript value slice inner index (rules.sound value inner valueLowered)
      (rules.sound slice index sliceLowered)
  | .list items, stream, lowered => by
    simp only [expr, bind_eq_ok, inside_eq_ok, pure_eq_ok] at lowered
    obtain ⟨streams, collected, rfl⟩ := lowered
    exact rules.list items streams (rules.sound_all items streams (forall₂_of_collect collected))
  | .tuple items, stream, lowered => by
    simp only [expr, bind_eq_ok, inside_eq_ok, pure_eq_ok] at lowered
    obtain ⟨streams, collected, rfl⟩ := lowered
    exact rules.tuple items streams (rules.sound_all items streams (forall₂_of_collect collected))
  | .await value, stream, lowered => by
    rw [expr] at lowered
    cases waiting : context.isAsync with
    | false =>
      rw [waiting] at lowered
      exact absurd lowered unsupportedExpr_ne_ok
    | true =>
      simp only [waiting, Bool.not_true, Bool.false_eq_true, if_false, bind_eq_ok, inside_eq_ok,
        pure_eq_ok] at lowered
      obtain ⟨inner, valueLowered, rfl⟩ := lowered
      exact rules.await value inner waiting (rules.sound value inner valueLowered)
  | .lambda parameters body, stream, lowered => by
    rw [expr] at lowered
    exact absurd lowered unsupportedExpr_ne_ok
  | .dict keys values, stream, lowered => by
    rw [expr] at lowered
    exact absurd lowered unsupportedExpr_ne_ok
  | .joinedStr values, stream, lowered => by
    rw [expr] at lowered
    exact absurd lowered unsupportedExpr_ne_ok

/-- A property that follows the rules holds of every item of a list. -/
theorem ExprRules.sound_all (rules : ExprRules context table property) : (items : List Expr) →
    (streams : List Stream) →
    List.Forall₂ (fun part stream => Part.outcome part = .ok stream) (parts context table items)
      streams → List.Forall₂ property items streams
  | [], streams, lowered => by
    cases lowered
    exact .nil
  | item :: rest, streams, lowered => by
    rw [parts] at lowered
    obtain _ | ⟨single, later⟩ := lowered
    exact .cons (rules.sound item _ single) (rules.sound_all rest _ later)

end

end Lower

end Oxide
