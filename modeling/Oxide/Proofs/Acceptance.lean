/-
This file says exactly which expressions are lowered. Every node is judged on its own: its operator
is one of those that are known, a chain of comparisons has as many operators as operands behind
them, a call has no keywords, and nothing is waited for where that is not possible. What the nodes
around it are does not matter, nor what the table says, although the table decides which parts are
lowered at all.

The rules of emission hold in both directions: `ExprRules.sound` opens a lowering that succeeds,
and `loweredRules` puts one together again.
-/

import Oxide.Proofs.StmtEmission
import Oxide.Proofs.OperatorStructure

namespace Oxide.Lower

open Attempt

/-! ### Lowerings that are put together -/

variable {context : Context} {table : Table}

/-- A list is lowered if all its parts are. -/
theorem collect_of_forall₂ {place : String} {outcome : Part → Lowering Stream} {number : Nat}
    {parts : List Part} {streams : List Stream}
    (all : List.Forall₂ (fun part stream => outcome part = .ok stream) parts streams) :
    collect place outcome number parts = .ok streams := by
  induction all generalizing number with
  | nil => rfl
  | cons first _ inductionHypothesis =>
    rw [collect, first, inductionHypothesis]
    rfl

/-- The parts of expressions that are lowered have the streams of these as outcomes. -/
theorem parts_of_forall₂ {items : List Expr} {streams : List Stream}
    (all : List.Forall₂ (fun item stream => expr context table item = .ok stream) items streams) :
    List.Forall₂ (fun part stream => part.outcome = .ok stream) (parts context table items)
      streams := by
  induction all with
  | nil => exact .nil
  | cons first _ inductionHypothesis =>
    rw [parts]
    exact .cons first inductionHypothesis

theorem operands_of_forall₂ {items : List Expr} {streams : List Stream}
    (all : List.Forall₂ (fun item stream => expr context table item = .ok stream) items streams) :
    List.Forall₂ (fun part stream => part.operand = .ok stream) (parts context table items)
      (List.zipWith operand items streams) := by
  induction all with
  | nil => exact .nil
  | cons first _ inductionHypothesis =>
    rw [parts]
    exact .cons (operand_eq_ok.mpr ⟨_, first, rfl⟩) inductionHypothesis

theorem elements_of_forall₂ {items : List Expr} {streams : List Stream}
    (all : List.Forall₂ (fun item stream => expr context table item = .ok stream) items streams) :
    elements (parts context table items) = .ok streams :=
  collect_of_forall₂ (parts_of_forall₂ all)

/-- A comparison that follows the rules is lowered so. -/
theorem comparison_eq_ok {whole left right : Expr} {first second piece : Stream} {op : String}
    (compared : Comparison left first op right second piece) :
    comparison whole ⟨left, .ok first⟩ op ⟨right, .ok second⟩ = .ok piece := by
  cases compared with
  | contains => rfl
  | excludes => rfl
  | isNone right second nothing =>
    simp only [comparison, nothing]
    rfl
  | isSome right second nothing =>
    simp only [comparison, nothing]
    rfl
  | signed op right second sign notNone notSome known =>
    have notIn : op ≠ "In" := by
      rintro rfl
      cases known
    have notNotIn : op ≠ "NotIn" := by
      rintro rfl
      cases known
    rw [comparison, if_neg notIn, if_neg notNotIn, if_neg, if_neg, known]
    · rfl
    · simpa using notSome
    · simpa using notNone

theorem comparisons_eq_ok {whole left : Expr} {first : Stream} {ops : List String}
    {rights : List Expr} {streams pieces : List Stream}
    (compared : Comparisons left first ops rights streams pieces)
    (all : List.Forall₂ (fun item stream => expr context table item = .ok stream) rights streams)
    (number : Nat) :
    comparisons whole number ⟨left, .ok first⟩ ops (parts context table rights) = .ok pieces := by
  induction compared generalizing number with
  | nil => rfl
  | cons single _ inductionHypothesis =>
    obtain _ | ⟨second, rest⟩ := all
    rw [parts, comparisons, second, comparison_eq_ok single, inductionHypothesis rest]
    rfl

theorem Comparisons.length_eq {left : Expr} {first : Stream} {ops : List String}
    {rights : List Expr} {streams pieces : List Stream}
    (compared : Comparisons left first ops rights streams pieces) :
    ops.length = rights.length := by
  induction compared with
  | nil => rfl
  | cons _ _ inductionHypothesis => exact congrArg Nat.succ inductionHypothesis

theorem chain_eq_ok {whole left : Expr} {first : Stream} {ops : List String} {rights : List Part}
    {pieces : List Stream} (nonempty : ops ≠ []) (same : ops.length = rights.length)
    (compared : comparisons whole 0 ⟨left, .ok first⟩ ops rights = .ok pieces) :
    chain whole ⟨left, .ok first⟩ ops rights = .ok (conjunction pieces) := by
  have wellFormed : ¬ (ops.isEmpty || ops.length ≠ rights.length) = true := by
    simp [nonempty, same]
  rw [chain, if_neg wellFormed, compared]
  cases pieces with
  | nil => rfl
  | cons piece rest =>
    cases rest with
    | nil => rfl
    | cons next rest => rfl

/-- A special call that follows the rules is lowered so. -/
theorem specialCall?_eq_some {function : Expr} {arguments : List Expr} {streams : List Stream}
    {stream : Stream} (known : SpecialCall table function arguments streams stream) :
    specialCall? table function arguments streams = some stream := by
  cases known with
  | print free => simp [specialCall?, knownCall?, free]
  | len free => simp [specialCall?, knownCall?, free]
  | str free => simp [specialCall?, knownCall?, free]
  | rangeTo free => simp [specialCall?, knownCall?, free]
  | rangeFrom free => simp [specialCall?, knownCall?, free]
  | rangeBy free => simp [specialCall?, knownCall?, free]

theorem length_parts (items : List Expr) : (parts context table items).length = items.length := by
  rw [← List.length_map Part.expr, parts_map_expr]

/-- What the rules of emission put together is lowered. -/
theorem loweredRules :
    ExprRules context table fun value stream => expr context table value = .ok stream where
  constant value := by rw [expr]
  name id := by rw [expr]
  binaryMethod left op right name first second known leftLowered rightLowered := by
    rw [expr, binary, known, leftLowered, rightLowered]
    rfl
  binarySign left op right sign first second noMethod known leftLowered rightLowered := by
    rw [expr, binary, noMethod, known, leftLowered, rightLowered]
    rfl
  unary op value sign stream known lowered := by
    rw [expr, known, lowered]
    rfl
  logical op values sign streams known lowered := by
    rw [expr, known, collect_of_forall₂ (operands_of_forall₂ lowered)]
    rfl
  compare left ops rights first streams pieces nonempty emitted leftLowered rightsLowered := by
    rw [expr, leftLowered]
    refine chain_eq_ok nonempty ?_ (comparisons_eq_ok emitted rightsLowered 0)
    rw [length_parts, emitted.length_eq]
  special function arguments streams stream known lowered := by
    rw [expr, elements_of_forall₂ lowered]
    simp only [inside, bind, Except.bind, specialCall?_eq_some known]
    rfl
  call function arguments callee streams unknown functionLowered lowered := by
    rw [expr, elements_of_forall₂ lowered, functionLowered]
    simp only [inside, bind, Except.bind, unknown]
    rfl
  field value attr stream lowered := by
    rw [expr, lowered]
    rfl
  subscript value slice stream index valueLowered sliceLowered := by
    rw [expr, valueLowered, sliceLowered]
    rfl
  list items streams lowered := by
    rw [expr, elements_of_forall₂ lowered]
    rfl
  tuple items streams lowered := by
    rw [expr, elements_of_forall₂ lowered]
    rfl
  await value stream waiting lowered := by
    rw [expr, lowered]
    simp only [waiting]
    rfl

/-! ### Nodes that are accepted -/

/-- The operators between two operands. -/
def binaryOperators : List String :=
  ["Add", "Sub", "Mult", "Div", "Mod", "LShift", "RShift", "BitOr", "BitXor", "BitAnd", "Pow",
    "FloorDiv"]

/-- The operators in front of an operand. -/
def unaryOperators : List String := ["Not", "Invert", "USub", "UAdd"]

/-- The operators between truth values. -/
def logicalOperators : List String := ["And", "Or"]

/-- The operators of comparisons. -/
def comparisonOperators : List String :=
  ["Eq", "NotEq", "Lt", "LtE", "Gt", "GtE", "Is", "IsNot", "In", "NotIn"]

/-- Whether a node can be lowered if its parts can, where it is said if it is possible to wait. -/
def isAccepted (waiting : Bool) : Expr → Bool
  | .constant _ => true
  | .name _ => true
  | .binOp _ op _ => binaryOperators.contains op
  | .unaryOp op _ => unaryOperators.contains op
  | .boolOp op _ => logicalOperators.contains op
  | .compare _ ops comparators =>
    !ops.isEmpty && ops.length = comparators.length && ops.all comparisonOperators.contains
  | .call _ _ keywords => keywords.isEmpty
  | .attribute _ _ => true
  | .subscript _ _ => true
  | .list _ => true
  | .tuple _ => true
  | .await _ => waiting
  | .absent => false
  | .lambda _ _ => false
  | .dict _ _ => false
  | .joinedStr _ => false

/-- The operators in the list are those with a method or a sign. -/
theorem mem_binaryOperators_iff {op : String} :
    op ∈ binaryOperators ↔
      (∃ name, binaryMethod? op = some name) ∨ ∃ sign, binarySign? op = some sign := by
  constructor
  · have known : ∀ op ∈ binaryOperators, (binaryMethod? op).isSome ∨ (binarySign? op).isSome := by
      decide
    exact fun listed =>
      (known op listed).imp Option.isSome_iff_exists.mp Option.isSome_iff_exists.mp
  · intro known
    by_contra unlisted
    simp only [binaryOperators, List.mem_cons, not_or] at unlisted
    simp [binaryMethod?, binarySign?, unlisted] at known

theorem mem_unaryOperators_iff {op : String} :
    op ∈ unaryOperators ↔ ∃ sign, unarySign? op = some sign := by
  constructor
  · have known : ∀ op ∈ unaryOperators, (unarySign? op).isSome := by decide
    exact fun listed => Option.isSome_iff_exists.mp (known op listed)
  · intro known
    by_contra unlisted
    simp only [unaryOperators, List.mem_cons, not_or] at unlisted
    simp [unarySign?, unlisted] at known

theorem mem_logicalOperators_iff {op : String} :
    op ∈ logicalOperators ↔ ∃ sign, logicalSign? op = some sign := by
  constructor
  · have known : ∀ op ∈ logicalOperators, (logicalSign? op).isSome := by decide
    exact fun listed => Option.isSome_iff_exists.mp (known op listed)
  · intro known
    by_contra unlisted
    simp only [logicalOperators, List.mem_cons, not_or] at unlisted
    simp [logicalSign?, unlisted] at known

/-- The comparisons in the list are those with a sign, and the two of membership. -/
theorem mem_comparisonOperators_iff {op : String} :
    op ∈ comparisonOperators ↔
      op = "In" ∨ op = "NotIn" ∨ ∃ sign, comparisonSign? op = some sign := by
  constructor
  · have known : ∀ op ∈ comparisonOperators,
        op = "In" ∨ op = "NotIn" ∨ (comparisonSign? op).isSome := by decide
    exact fun listed => (known op listed).imp_right fun other =>
      other.imp_right Option.isSome_iff_exists.mp
  · intro known
    by_contra unlisted
    simp only [comparisonOperators, List.mem_cons, not_or] at unlisted
    simp [comparisonSign?, unlisted] at known

/-! ### What is lowered is accepted -/

theorem mem_comparisonOperators_of_comparison {left right : Expr} {first second piece : Stream}
    {op : String} (compared : Comparison left first op right second piece) :
    op ∈ comparisonOperators := by
  cases compared with
  | contains => decide
  | excludes => decide
  | isNone => decide
  | isSome => decide
  | signed op right second sign notNone notSome known =>
    exact mem_comparisonOperators_iff.mpr (.inr (.inr ⟨sign, known⟩))

/-- A chain that is emitted has only comparisons of the list. -/
theorem Comparisons.all_mem {left : Expr} {first : Stream} {ops : List String}
    {rights : List Expr} {streams pieces : List Stream}
    (compared : Comparisons left first ops rights streams pieces) :
    ∀ op ∈ ops, op ∈ comparisonOperators := by
  induction compared with
  | nil => exact List.forall_mem_nil _
  | cons single _ inductionHypothesis =>
    exact List.forall_mem_cons.mpr
      ⟨mem_comparisonOperators_of_comparison single, inductionHypothesis⟩

theorem forall_mem_nodesOf {property : Expr → Prop} {items : List Expr}
    (all : ∀ item ∈ items, ∀ node ∈ item.nodes, property node) :
    ∀ node ∈ Expr.nodesOf items, property node := by
  induction items with
  | nil => exact List.forall_mem_nil _
  | cons item rest inductionHypothesis =>
    rw [List.forall_mem_cons] at all
    rw [Expr.nodesOf]
    exact List.forall_mem_append.mpr ⟨all.1, inductionHypothesis all.2⟩

theorem forall_mem_nodesOf_of_forall₂ {property : Expr → Prop} {items : List Expr}
    {streams : List Stream}
    (all : List.Forall₂ (fun item _ => ∀ node ∈ item.nodes, property node) items streams) :
    ∀ node ∈ Expr.nodesOf items, property node := by
  have paired : List.Forall₂ (fun item (_ : Stream) =>
      (∀ node ∈ item.nodes, property node) ∧ True) items streams :=
    all.imp fun _ _ holds => ⟨holds, trivial⟩
  exact forall_mem_nodesOf ((List.forall₂_and_left items streams).mp paired).1

/-- The rules of emission apply to nodes that are accepted. -/
theorem acceptedRules :
    ExprRules context table fun value _ =>
      ∀ node ∈ value.nodes, isAccepted context.isAsync node where
  constant value := by simp [Expr.nodes, isAccepted]
  name id := by simp [Expr.nodes, isAccepted]
  binaryMethod left op right name first second known leftAccepted rightAccepted := by
    have listed := mem_binaryOperators_iff.mpr (.inl ⟨name, known⟩)
    rw [Expr.nodes, List.forall_mem_cons, List.forall_mem_append]
    exact ⟨List.contains_iff_mem.mpr listed, leftAccepted, rightAccepted⟩
  binarySign left op right sign first second noMethod known leftAccepted rightAccepted := by
    have listed := mem_binaryOperators_iff.mpr (.inr ⟨sign, known⟩)
    rw [Expr.nodes, List.forall_mem_cons, List.forall_mem_append]
    exact ⟨List.contains_iff_mem.mpr listed, leftAccepted, rightAccepted⟩
  unary op value sign stream known accepted := by
    have listed := mem_unaryOperators_iff.mpr ⟨sign, known⟩
    rw [Expr.nodes, List.forall_mem_cons]
    exact ⟨List.contains_iff_mem.mpr listed, accepted⟩
  logical op values sign streams known accepted := by
    have listed := mem_logicalOperators_iff.mpr ⟨sign, known⟩
    rw [Expr.nodes, List.forall_mem_cons]
    exact ⟨List.contains_iff_mem.mpr listed, forall_mem_nodesOf_of_forall₂ accepted⟩
  compare left ops rights first streams pieces nonempty emitted leftAccepted rightsAccepted := by
    rw [Expr.nodes, List.forall_mem_cons, List.forall_mem_append]
    refine ⟨?_, leftAccepted, forall_mem_nodesOf_of_forall₂ rightsAccepted⟩
    simpa [isAccepted, nonempty, emitted.length_eq] using emitted.all_mem
  special function arguments streams stream known accepted := by
    rw [Expr.nodes, List.forall_mem_cons, List.forall_mem_append]
    refine ⟨rfl, ?_, forall_mem_nodesOf_of_forall₂ accepted⟩
    cases known <;> simp [Expr.nodes, isAccepted]
  call function arguments callee streams unknown functionAccepted accepted := by
    rw [Expr.nodes, List.forall_mem_cons, List.forall_mem_append]
    exact ⟨rfl, functionAccepted, forall_mem_nodesOf_of_forall₂ accepted⟩
  field value attr stream accepted := by
    rw [Expr.nodes, List.forall_mem_cons]
    exact ⟨rfl, accepted⟩
  subscript value slice stream index valueAccepted sliceAccepted := by
    rw [Expr.nodes, List.forall_mem_cons, List.forall_mem_append]
    exact ⟨rfl, valueAccepted, sliceAccepted⟩
  list items streams accepted := by
    rw [Expr.nodes, List.forall_mem_cons]
    exact ⟨rfl, forall_mem_nodesOf_of_forall₂ accepted⟩
  tuple items streams accepted := by
    rw [Expr.nodes, List.forall_mem_cons]
    exact ⟨rfl, forall_mem_nodesOf_of_forall₂ accepted⟩
  await value stream waiting accepted := by
    rw [Expr.nodes, List.forall_mem_cons]
    exact ⟨waiting, accepted⟩

/-! ### What is accepted is lowered -/

/-- A comparison of the list is emitted whatever its operands are. -/
theorem exists_comparison {left right : Expr} {first second : Stream} {op : String}
    (listed : op ∈ comparisonOperators) : ∃ piece, Comparison left first op right second piece := by
  obtain rfl | rfl | ⟨sign, known⟩ := mem_comparisonOperators_iff.mp listed
  · exact ⟨_, .contains right second⟩
  · exact ⟨_, .excludes right second⟩
  · by_cases isNone : op = "Is" ∧ right.isNone
    · obtain ⟨rfl, nothing⟩ := isNone
      exact ⟨_, .isNone right second nothing⟩
    by_cases isSome : op = "IsNot" ∧ right.isNone
    · obtain ⟨rfl, nothing⟩ := isSome
      exact ⟨_, .isSome right second nothing⟩
    exact ⟨_, .signed op right second sign isNone isSome known⟩

/-- A chain of comparisons of the list is emitted. -/
theorem exists_comparisons {left : Expr} {first : Stream} {ops : List String}
    {rights : List Expr} {streams : List Stream} (same : ops.length = rights.length)
    (asMany : rights.length = streams.length) (listed : ∀ op ∈ ops, op ∈ comparisonOperators) :
    ∃ pieces, Comparisons left first ops rights streams pieces := by
  induction ops generalizing left first rights streams with
  | nil =>
    obtain rfl := List.length_eq_zero_iff.mp same.symm
    obtain rfl := List.length_eq_zero_iff.mp asMany.symm
    exact ⟨[], .nil left first⟩
  | cons op ops inductionHypothesis =>
    obtain _ | ⟨right, rights⟩ := rights
    · cases same
    obtain _ | ⟨second, streams⟩ := streams
    · cases asMany
    rw [List.forall_mem_cons] at listed
    obtain ⟨piece, single⟩ := exists_comparison listed.1
    obtain ⟨pieces, rest⟩ :=
      inductionHypothesis (Nat.succ.inj same) (Nat.succ.inj asMany) listed.2
    exact ⟨piece :: pieces, .cons single rest⟩

mutual

/-- An expression whose nodes are all accepted is lowered, whatever the table is. -/
theorem exists_expr_of_accepted : (value : Expr) →
    (∀ node ∈ value.nodes, isAccepted context.isAsync node) →
    ∃ stream, expr context table value = .ok stream
  | .constant value, _ => ⟨_, loweredRules.constant value⟩
  | .name id, _ => ⟨_, loweredRules.name id⟩
  | .binOp left op right, accepted => by
    rw [Expr.nodes, List.forall_mem_cons, List.forall_mem_append] at accepted
    obtain ⟨first, leftLowered⟩ := exists_expr_of_accepted left accepted.2.1
    obtain ⟨second, rightLowered⟩ := exists_expr_of_accepted right accepted.2.2
    cases isMethod : binaryMethod? op with
    | some name =>
      exact ⟨_, loweredRules.binaryMethod left op right name first second isMethod leftLowered
        rightLowered⟩
    | none =>
      obtain ⟨name, known⟩ | ⟨sign, known⟩ :=
        mem_binaryOperators_iff.mp (List.contains_iff_mem.mp accepted.1)
      · cases isMethod.symm.trans known
      · exact ⟨_, loweredRules.binarySign left op right sign first second isMethod known
          leftLowered rightLowered⟩
  | .unaryOp op value, accepted => by
    rw [Expr.nodes, List.forall_mem_cons] at accepted
    obtain ⟨stream, lowered⟩ := exists_expr_of_accepted value accepted.2
    obtain ⟨sign, known⟩ := mem_unaryOperators_iff.mp (List.contains_iff_mem.mp accepted.1)
    exact ⟨_, loweredRules.unary op value sign stream known lowered⟩
  | .boolOp op values, accepted => by
    rw [Expr.nodes, List.forall_mem_cons] at accepted
    obtain ⟨streams, lowered⟩ := exists_exprs_of_accepted values accepted.2
    obtain ⟨sign, known⟩ := mem_logicalOperators_iff.mp (List.contains_iff_mem.mp accepted.1)
    exact ⟨_, loweredRules.logical op values sign streams known lowered⟩
  | .compare left ops rights, accepted => by
    rw [Expr.nodes, List.forall_mem_cons, List.forall_mem_append] at accepted
    obtain ⟨first, leftLowered⟩ := exists_expr_of_accepted left accepted.2.1
    obtain ⟨streams, rightsLowered⟩ := exists_exprs_of_accepted rights accepted.2.2
    obtain ⟨⟨nonempty, same⟩, listed⟩ :
        (ops ≠ [] ∧ ops.length = rights.length) ∧ ∀ op ∈ ops, op ∈ comparisonOperators := by
      simpa [isAccepted] using accepted.1
    obtain ⟨pieces, compared⟩ := exists_comparisons same rightsLowered.length_eq listed
    exact ⟨_, loweredRules.compare left ops rights first streams pieces nonempty compared
      leftLowered rightsLowered⟩
  | .call function arguments keywords, accepted => by
    rw [Expr.nodes, List.forall_mem_cons, List.forall_mem_append] at accepted
    obtain ⟨callee, functionLowered⟩ := exists_expr_of_accepted function accepted.2.1
    obtain ⟨streams, lowered⟩ := exists_exprs_of_accepted arguments accepted.2.2
    obtain rfl : keywords = [] := List.isEmpty_iff.mp accepted.1
    cases known : specialCall? table function arguments streams with
    | some stream =>
      exact ⟨stream, loweredRules.special function arguments streams stream
        (specialCall_of_some lowered.length_eq known) lowered⟩
    | none =>
      exact ⟨_, loweredRules.call function arguments callee streams known functionLowered lowered⟩
  | .attribute value attr, accepted => by
    rw [Expr.nodes, List.forall_mem_cons] at accepted
    obtain ⟨stream, lowered⟩ := exists_expr_of_accepted value accepted.2
    exact ⟨_, loweredRules.field value attr stream lowered⟩
  | .subscript value slice, accepted => by
    rw [Expr.nodes, List.forall_mem_cons, List.forall_mem_append] at accepted
    obtain ⟨stream, valueLowered⟩ := exists_expr_of_accepted value accepted.2.1
    obtain ⟨index, sliceLowered⟩ := exists_expr_of_accepted slice accepted.2.2
    exact ⟨_, loweredRules.subscript value slice stream index valueLowered sliceLowered⟩
  | .list items, accepted => by
    rw [Expr.nodes, List.forall_mem_cons] at accepted
    obtain ⟨streams, lowered⟩ := exists_exprs_of_accepted items accepted.2
    exact ⟨_, loweredRules.list items streams lowered⟩
  | .tuple items, accepted => by
    rw [Expr.nodes, List.forall_mem_cons] at accepted
    obtain ⟨streams, lowered⟩ := exists_exprs_of_accepted items accepted.2
    exact ⟨_, loweredRules.tuple items streams lowered⟩
  | .await value, accepted => by
    rw [Expr.nodes, List.forall_mem_cons] at accepted
    obtain ⟨stream, lowered⟩ := exists_expr_of_accepted value accepted.2
    exact ⟨_, loweredRules.await value stream accepted.1 lowered⟩
  | .absent, accepted => absurd (accepted .absent List.mem_cons_self) nofun
  | .lambda params body, accepted =>
    absurd (accepted (.lambda params body) List.mem_cons_self) nofun
  | .dict keys values, accepted => absurd (accepted (.dict keys values) List.mem_cons_self) nofun
  | .joinedStr values, accepted => absurd (accepted (.joinedStr values) List.mem_cons_self) nofun

/-- Expressions of which all nodes are accepted are lowered. -/
theorem exists_exprs_of_accepted : (items : List Expr) →
    (∀ node ∈ Expr.nodesOf items, isAccepted context.isAsync node) →
    ∃ streams, List.Forall₂ (fun item stream => expr context table item = .ok stream) items streams
  | [], _ => ⟨[], .nil⟩
  | item :: rest, accepted => by
    rw [Expr.nodesOf, List.forall_mem_append] at accepted
    obtain ⟨stream, lowered⟩ := exists_expr_of_accepted item accepted.1
    obtain ⟨streams, restLowered⟩ := exists_exprs_of_accepted rest accepted.2
    exact ⟨stream :: streams, .cons lowered restLowered⟩

end

/-- An expression is lowered exactly if all its nodes are accepted. -/
theorem exists_expr_iff_accepted (context : Context) (table : Table) (value : Expr) :
    (∃ stream, expr context table value = .ok stream) ↔
      ∀ node ∈ value.nodes, isAccepted context.isAsync node :=
  ⟨fun ⟨stream, lowered⟩ => acceptedRules.sound value stream lowered,
    exists_expr_of_accepted value⟩

/-! ### Contexts in which it is not possible to wait -/

theorem forall_forall₂ {Item Image Choice : Type}
    {property : Choice → Item → Image → Prop} {items : List Item} {images : List Image}
    (all : List.Forall₂ (fun item image => ∀ choice, property choice item image) items images)
    (choice : Choice) : List.Forall₂ (property choice) items images :=
  all.imp fun _ _ holds => holds choice

/-- Where it is not possible to wait, the rules of emission put the same streams together as
everywhere else. -/
theorem everywhereRules (sync : ¬ context.isAsync) :
    ExprRules context table fun value stream =>
      ∀ other, expr other table value = .ok stream where
  constant value _ := loweredRules.constant value
  name id _ := loweredRules.name id
  binaryMethod left op right name first second known leftLowered rightLowered other :=
    loweredRules.binaryMethod left op right name first second known (leftLowered other)
      (rightLowered other)
  binarySign left op right sign first second noMethod known leftLowered rightLowered other :=
    loweredRules.binarySign left op right sign first second noMethod known (leftLowered other)
      (rightLowered other)
  unary op value sign stream known lowered other :=
    loweredRules.unary op value sign stream known (lowered other)
  logical op values sign streams known lowered other :=
    loweredRules.logical op values sign streams known (forall_forall₂ lowered other)
  compare left ops rights first streams pieces nonempty emitted leftLowered rightsLowered other :=
    loweredRules.compare left ops rights first streams pieces nonempty emitted (leftLowered other)
      (forall_forall₂ rightsLowered other)
  special function arguments streams stream known lowered other :=
    loweredRules.special function arguments streams stream known (forall_forall₂ lowered other)
  call function arguments callee streams unknown functionLowered lowered other :=
    loweredRules.call function arguments callee streams unknown (functionLowered other)
      (forall_forall₂ lowered other)
  field value attr stream lowered other :=
    loweredRules.field value attr stream (lowered other)
  subscript value slice stream index valueLowered sliceLowered other :=
    loweredRules.subscript value slice stream index (valueLowered other) (sliceLowered other)
  list items streams lowered other :=
    loweredRules.list items streams (forall_forall₂ lowered other)
  tuple items streams lowered other :=
    loweredRules.tuple items streams (forall_forall₂ lowered other)
  await _ _ waiting := absurd waiting sync

/-- An expression is lowered if and only if all its nodes are accepted. So the table does not matter
for that, nor do the settings with which the expression is lowered as a statement, and an expression
that is lowered where it is not possible to wait is lowered to the same stream everywhere. -/
theorem expr_lowered_iff_accepted (context : Context) (table : Table) (value : Expr) :
    ((∃ stream, expr context table value = .ok stream) ↔
      ∀ node ∈ value.nodes, isAccepted context.isAsync node) ∧
    (∀ options otherTable, (∃ stream, stmt options (.expr value) context otherTable = .ok stream) ↔
      ∃ stream, expr context table value = .ok stream) ∧
    ∀ stream, ¬ context.isAsync → expr context table value = .ok stream →
      ∀ other, expr other table value = .ok stream := by
  refine ⟨exists_expr_iff_accepted context table value, fun options otherTable => ?_,
    fun stream sync lowered => (everywhereRules sync).sound value stream lowered⟩
  rw [stmt, exists_expr_iff_accepted, exists_expr_iff_accepted]

/-- `-a < len(b) is not None` is lowered to the same stream in two contexts, with `len` and with a
function of that name, and waiting for it is refused where that is not possible. -/
theorem expr_lowered_iff_accepted_chain :
    let value : Expr := .compare (.unaryOp "USub" (.name "a")) ["Lt", "IsNot"]
      [.call (.name "len") [.name "b"] [], .constant .none]
    (∀ node ∈ value.nodes, isAccepted false node) ∧
      (∃ stream, expr (.sync "f") Table.new value = .ok stream ∧
        expr (.async "g") Table.new value = .ok stream) ∧
      (∃ stream, stmt {} (.expr value) (.sync "f")
        (Table.new.insert "len" (.function (.empty "len"))) = .ok stream) ∧
      ¬ ∃ stream, expr (.sync "f") Table.new (.await value) = .ok stream := by
  intro value
  have accepted : ∀ node ∈ value.nodes, isAccepted false node := by decide
  obtain ⟨lowered, withTable, everywhere⟩ :=
    expr_lowered_iff_accepted (.sync "f") Table.new value
  obtain ⟨stream, isLowered⟩ := lowered.mpr accepted
  refine ⟨accepted, ⟨stream, isLowered, ?_⟩, ?_, ?_⟩
  · exact everywhere stream nofun isLowered (.async "g")
  · exact (withTable {} _).mpr ⟨stream, isLowered⟩
  · rw [(expr_lowered_iff_accepted (.sync "f") Table.new (.await value)).1]
    exact fun all => absurd (all (.await value) List.mem_cons_self) nofun

end Oxide.Lower
