/-
This file follows the two faults that stand for parts which are not there through the lowering. A
lowering that is careful never fails because a statement is left out, and because an expression is
left out only where gaps are allowed. Whatever is put together from careful lowerings is careful, so
it is enough that a whole tree has none but whole parts; the items of lists are the only expressions
that may be left out and are lowered all the same. With this a module that was read from a document
is lowered without coming upon a part that is not there, unless a list in the document holds a null.
-/

import Oxide.Lower.Module
import Oxide.Proofs.ReadBack
import Oxide.Proofs.WholeReadings

namespace Oxide.Lower

/-! ### Careful lowerings -/

/-- Whether a lowering of a whole tree may fail for the given fault. -/
def permits (gaps : Bool) : LowerFault → Bool
  | .absentStmt => false
  | .absentExpr => gaps
  | _ => true

/-- A lowering that fails for no other faults than those. -/
def Careful {Value : Type} (gaps : Bool) (lowering : Lowering Value) : Prop :=
  ∀ failure, lowering = .error failure → permits gaps failure.cause

variable {gaps : Bool}

namespace Careful

variable {First Second : Type}

theorem ok (value : First) : Careful gaps (.ok value) :=
  nofun

/-- A failure is careful if its cause is permitted. -/
theorem fail {cause : LowerFault} (permitted : permits gaps cause) :
    Careful gaps (Attempt.fail cause : Lowering First) := by
  intro failure failed
  cases failed
  exact permitted

theorem bind {lowering : Lowering First} {next : First → Lowering Second}
    (first : Careful gaps lowering) (second : ∀ value, Careful gaps (next value)) :
    Careful gaps (lowering >>= next) := by
  intro failure failed
  cases lowering with
  | ok value => exact second value failure failed
  | error other =>
    cases failed
    exact first _ rfl

theorem map {lowering : Lowering First} (change : First → Second)
    (first : Careful gaps lowering) : Careful gaps (change <$> lowering) := by
  intro failure failed
  cases lowering with
  | ok value => cases failed
  | error other =>
    cases failed
    exact first _ rfl

/-- Naming the place of a failure does not change its cause. -/
theorem inside (place : String) {lowering : Lowering First} (first : Careful gaps lowering) :
    Careful gaps (Attempt.inside place lowering) := by
  intro failure failed
  cases lowering with
  | ok value => cases failed
  | error other =>
    cases failed
    exact first other rfl

/-- What is not supported is never a part that is missing. -/
theorem unsupportedExpr (reason : String) (value : Expr) :
    Careful gaps (Lowering.unsupportedExpr reason value : Lowering First) :=
  fail rfl

theorem unsupportedStmt (reason : String) (value : Stmt) :
    Careful gaps (Lowering.unsupportedStmt reason value : Lowering First) :=
  fail rfl

theorem unsupportedParams (reason : String) (values : List Param) :
    Careful gaps (Lowering.unsupportedParams reason values : Lowering First) :=
  fail rfl

end Careful

open Careful

/-! ### Expressions -/

/-- The parts of a list are lowered carefully if each of them is. -/
theorem careful_collect {place : String} {outcome : Part → Lowering Stream} {parts : List Part}
    (each : ∀ part ∈ parts, Careful gaps (outcome part)) (number : Nat) :
    Careful gaps (collect place outcome number parts) := by
  induction parts generalizing number with
  | nil => exact ok []
  | cons part rest inductionHypothesis =>
    rw [List.forall_mem_cons] at each
    exact bind (inside _ each.1) fun _ =>
      bind (inductionHypothesis each.2 _) fun _ => ok _

theorem careful_operand {part : Part} (careful : Careful gaps part.outcome) :
    Careful gaps part.operand :=
  map _ careful

theorem careful_binary {left right : Part} (ofLeft : Careful gaps left.outcome)
    (ofRight : Careful gaps right.outcome) (whole : Expr) (op : String) :
    Careful gaps (binary whole left op right) := by
  unfold binary
  split
  · exact bind (inside _ (careful_operand ofLeft)) fun _ =>
      bind (inside _ ofRight) fun _ => ok _
  · split
    · exact bind (inside _ (careful_operand ofLeft)) fun _ =>
        bind (inside _ (careful_operand ofRight)) fun _ => ok _
    · exact unsupportedExpr _ _

theorem careful_containment {left right : Part} (ofLeft : Careful gaps left.outcome)
    (ofRight : Careful gaps right.outcome) : Careful gaps (containment left right) :=
  bind (careful_operand ofRight) fun _ => bind ofLeft fun _ => ok _

theorem careful_comparison {left right : Part} (ofLeft : Careful gaps left.outcome)
    (ofRight : Careful gaps right.outcome) (whole : Expr) (op : String) :
    Careful gaps (comparison whole left op right) := by
  unfold comparison
  split
  · exact careful_containment ofLeft ofRight
  split
  · exact bind (careful_containment ofLeft ofRight) fun _ => ok _
  split
  · exact bind (careful_operand ofLeft) fun _ => ok _
  split
  · exact bind (careful_operand ofLeft) fun _ => ok _
  split
  · exact bind (careful_operand ofLeft) fun _ =>
      bind (careful_operand ofRight) fun _ => ok _
  · exact unsupportedExpr _ _

theorem careful_comparisons {left : Part} {rights : List Part}
    (ofLeft : Careful gaps left.outcome) (ofRights : ∀ part ∈ rights, Careful gaps part.outcome)
    (whole : Expr) (number : Nat) (ops : List String) :
    Careful gaps (comparisons whole number left ops rights) := by
  induction ops generalizing number left rights with
  | nil => exact ok []
  | cons op ops inductionHypothesis =>
    cases rights with
    | nil => exact ok []
    | cons right rest =>
      rw [List.forall_mem_cons] at ofRights
      exact bind (inside _ (careful_comparison ofLeft ofRights.1 whole op)) fun _ =>
        bind (inductionHypothesis ofRights.1 ofRights.2 _) fun _ => ok _

/-- A malformed chain is not supported, so that it names no missing part. -/
theorem careful_chain {left : Part} {rights : List Part} (ofLeft : Careful gaps left.outcome)
    (ofRights : ∀ part ∈ rights, Careful gaps part.outcome) (whole : Expr) (ops : List String) :
    Careful gaps (chain whole left ops rights) := by
  unfold chain
  split
  · exact unsupportedExpr _ _
  · refine bind (careful_comparisons ofLeft ofRights whole 0 ops) fun _ => ?_
    split <;> exact ok _

mutual

/-- The lowering of a whole expression is careful. -/
theorem careful_expr (context : Context) (table : Table) :
    (value : Expr) → value.isWhole gaps → Careful gaps (expr context table value)
  | .absent, whole => by cases whole
  | .constant value, _ => ok _
  | .name id, _ => ok _
  | .binOp left op right, whole => by
    simp only [Expr.isWhole, Bool.and_eq_true] at whole
    exact careful_binary (careful_expr context table left whole.1)
      (careful_expr context table right whole.2) _ op
  | .unaryOp op value, whole => by
    rw [expr]
    split
    · exact bind (inside _ (careful_expr context table value whole)) fun _ => ok _
    · exact unsupportedExpr _ _
  | .boolOp op values, whole => by
    rw [expr]
    split
    · exact map _ (careful_collect (fun part member =>
        careful_operand (careful_parts context table values whole part member)) 0)
    · exact unsupportedExpr _ _
  | .compare left ops comparators, whole => by
    simp only [Expr.isWhole, Bool.and_eq_true] at whole
    exact careful_chain (careful_expr context table left whole.1.1)
      (careful_parts context table comparators whole.2) _ ops
  | .call function arguments keywords, whole => by
    simp only [Expr.isWhole, Bool.and_eq_true] at whole
    rw [expr]
    split
    · exact unsupportedExpr _ _
    · refine bind (inside _ (careful_collect
        (careful_parts context table arguments whole.1.2) 0)) fun streams => ?_
      split
      · exact ok _
      · exact bind (inside _ (careful_expr context table function whole.1.1)) fun _ => ok _
  | .attribute value attr, whole =>
    bind (inside _ (careful_expr context table value whole)) fun _ => ok _
  | .subscript value slice, whole => by
    simp only [Expr.isWhole, Bool.and_eq_true] at whole
    exact bind (inside _ (careful_expr context table value whole.1)) fun _ =>
      bind (inside _ (careful_expr context table slice whole.2)) fun _ => ok _
  | .list items, whole =>
    bind (inside _ (careful_collect (careful_parts context table items whole) 0)) fun _ => ok _
  | .tuple items, whole =>
    bind (inside _ (careful_collect (careful_parts context table items whole) 0)) fun _ => ok _
  | .await value, whole => by
    rw [expr]
    split
    · exact unsupportedExpr _ _
    · exact bind (inside _ (careful_expr context table value whole)) fun _ => ok _
  | .lambda params body, _ => unsupportedExpr _ _
  | .dict keys values, _ => unsupportedExpr _ _
  | .joinedStr values, _ => unsupportedExpr _ _

/-- The lowerings of the expressions of a list are careful, also of those that are left out. -/
theorem careful_parts (context : Context) (table : Table) :
    (values : List Expr) → Expr.allWhole gaps values →
      ∀ part ∈ parts context table values, Careful gaps part.outcome
  | [], _ => nofun
  | first :: rest, whole => by
    simp only [Expr.allWhole, Bool.and_eq_true, Bool.or_eq_true] at whole
    refine List.forall_mem_cons.mpr ⟨?_, careful_parts context table rest whole.2⟩
    rcases whole.1 with here | ⟨allowed, isAbsent⟩
    · exact careful_expr context table first here
    · cases first with
      | absent => exact fail allowed
      | _ => cases isAbsent

end

/-! ### Targets and simple statements -/

variable {context : Context} {table : Table}

theorem careful_unpacking (items : List Expr) : Careful gaps (unpacking table items) := by
  unfold unpacking
  split
  · exact unsupportedExpr _ _
  split
  · exact ok _
  split
  · exact unsupportedExpr _ _
  · exact ok _

/-- A target that is left out is not supported, so that it names no missing part. -/
theorem careful_target (type? : Option Ty) {value : Expr}
    (whole : value.isWhole gaps ∨ value.isAbsent) :
    Careful gaps (target context table type? value) := by
  cases value with
  | name id => exact ok _
  | tuple items => exact careful_unpacking items
  | «attribute» value attr =>
    exact careful_expr context table (.attribute value attr) (whole.resolve_right nofun)
  | subscript value slice =>
    exact careful_expr context table (.subscript value slice) (whole.resolve_right nofun)
  | _ => exact unsupportedExpr _ _

theorem careful_loopTarget (value : Expr) : Careful gaps (loopTarget value) := by
  cases value with
  | name id => exact ok _
  | tuple items =>
    rw [loopTarget]
    split
    · exact ok _
    · exact unsupportedExpr _ _
  | _ => exact unsupportedExpr _ _

/-- An assignment is careful if its target and its value are whole. -/
theorem careful_assign {targets : List Expr} {value : Expr}
    (wholeTargets : Expr.allWhole gaps targets) (whole : value.isWhole gaps) :
    Careful gaps (assign context table targets value) := by
  unfold assign
  split
  case h_1 single =>
    have ofSingle := allWhole_iff.mp wholeTargets single List.mem_cons_self
    exact bind (inside _ (careful_expr context table value whole)) fun _ =>
      bind (inside _ (careful_target none (ofSingle.imp_right And.right))) fun _ => ok _
  case h_2 => exact unsupportedStmt _ _

theorem careful_augAssign {place value : Expr} (wholePlace : place.isWhole gaps)
    (whole : value.isWhole gaps) (op : String) :
    Careful gaps (augAssign context table place op value) := by
  refine bind (inside _ (careful_expr context table place wholePlace)) fun _ => ?_
  split
  · exact bind (inside _ (careful_expr context table value whole)) fun _ => ok _
  · split
    · exact unsupportedStmt _ _
    · have both : (Expr.binOp place op value).isWhole gaps := by
        rw [Expr.isWhole, wholePlace, whole, Bool.and_self]
      exact bind (inside _ (careful_expr context table _ both)) fun _ => ok _

/-- An assignment with a hint may leave its value out. -/
theorem careful_annAssign (options : Options) {place hint value : Expr}
    (wholePlace : place.isWhole gaps) (whole : value.isWholeOrAbsent gaps) :
    Careful gaps (annAssign context options table place hint value) := by
  unfold annAssign
  split
  · exact unsupportedExpr _ _
  · split
    case isTrue => split <;> exact ok _
    case isFalse present =>
      have there := whole_of_present whole present
      exact bind (inside _ (careful_expr context table value there)) fun _ =>
        bind (inside _ (careful_target _ (.inl wholePlace))) fun _ => ok _

/-- A statement that raises may leave its exception out. -/
theorem careful_raise {exc : Expr} (whole : exc.isWholeOrAbsent gaps) :
    Careful gaps (raise context table exc) := by
  unfold raise
  split
  case h_1 => exact ok _
  case h_2 => exact ok _
  case h_3 id message =>
    have ofCall := whole_of_present whole nofun
    simp only [Expr.isWhole, Bool.and_eq_true] at ofCall
    have ofMessage := careful_parts context table [message] ofCall.1.2
    exact bind (inside _ (ofMessage _ List.mem_cons_self)) fun _ => ok _
  case h_4 notAbsent _ _ =>
    have present : ¬ exc.isAbsent := by
      cases exc with
      | absent => exact absurd rfl notAbsent
      | _ => nofun
    exact bind (inside _ (careful_expr context table exc (whole_of_present whole present)))
      fun _ => ok _

theorem careful_assertion {test message : Expr} (wholeTest : test.isWhole gaps)
    (whole : message.isWholeOrAbsent gaps) :
    Careful gaps (assertion context table test message) := by
  refine bind (inside _ (careful_expr context table test wholeTest)) fun _ => ?_
  split
  case isTrue => exact ok _
  case isFalse present =>
    exact bind (inside _ (careful_expr context table message (whole_of_present whole present)))
      fun _ => ok _

/-! ### Statements -/

theorem careful_param (options : Options) (parameter : Param) :
    Careful gaps (param options parameter) := by
  unfold param
  split
  · exact unsupportedExpr _ _
  split
  · exact unsupportedParams _ _
  split
  · exact unsupportedExpr _ _
  · exact ok _

/-- The parameters of a function name no missing part. -/
theorem careful_params (options : Options) (parameters : List Param) :
    Careful gaps (params options parameters) := by
  have each (number : Nat) : Careful gaps (paramList options number parameters) := by
    induction parameters generalizing number with
    | nil => exact ok []
    | cons first rest inductionHypothesis =>
      exact bind (inside _ (careful_param options first)) fun _ =>
        bind (inductionHypothesis _) fun _ => ok _
  exact map _ (each 0)

theorem careful_result (options : Options) (returns : Expr) :
    Careful gaps (result options returns) := by
  unfold result
  split
  · exact ok _
  · split
    · exact unsupportedExpr _ _
    · exact ok _
    · exact ok _

mutual

/-- The lowering of a whole statement is careful. -/
theorem careful_stmt (options : Options) : (value : Stmt) → value.isWhole gaps →
    ∀ context table, Careful gaps (stmt options value context table)
  | .absent, whole, _, _ => by cases whole
  | .functionDef definition, whole, context, table =>
    careful_function options definition whole context table
  | .asyncFunctionDef definition, whole, _, table =>
    careful_function options definition whole _ table
  | .expr value, whole, context, table => careful_expr context table value whole
  | .assign targets value, whole, context, table => by
    simp only [Stmt.isWhole, Bool.and_eq_true] at whole
    exact careful_assign whole.1 whole.2
  | .augAssign place op value, whole, context, table => by
    simp only [Stmt.isWhole, Bool.and_eq_true] at whole
    exact careful_augAssign whole.1 whole.2 op
  | .annAssign place hint value, whole, context, table => by
    simp only [Stmt.isWhole, Bool.and_eq_true] at whole
    exact careful_annAssign options whole.1.1 whole.2
  | .ret value, whole, context, table => by
    rw [stmt]
    split
    case isTrue => exact ok _
    case isFalse present =>
      exact bind (inside _ (careful_expr context table value (whole_of_present whole present)))
        fun _ => ok _
  | .ifElse test body orelse, whole, context, table => by
    simp only [Stmt.isWhole, Bool.and_eq_true] at whole
    rw [stmt]
    refine bind (inside _ (careful_expr context table test whole.1.1)) fun _ =>
      bind (inside _ (careful_block options body whole.1.2 0 context _)) fun _ => ?_
    split
    · exact ok _
    split
    · exact bind (inside _ (careful_firstOf options orelse whole.2 context table)) fun _ => ok _
    · exact bind (inside _ (careful_block options orelse whole.2 0 context _)) fun _ => ok _
  | .whileLoop test body orelse, whole, context, table => by
    simp only [Stmt.isWhole, Bool.and_eq_true] at whole
    rw [stmt]
    split
    · exact unsupportedStmt _ _
    · refine bind (inside _ (careful_block options body whole.1.2 0 context _)) fun _ => ?_
      split
      · exact ok _
      · exact bind (inside _ (careful_expr context table test whole.1.1)) fun _ => ok _
  | .forLoop place iter body orelse, whole, context, table => by
    simp only [Stmt.isWhole, Bool.and_eq_true] at whole
    rw [stmt]
    split
    · exact unsupportedStmt _ _
    · exact bind (careful_loopTarget place) fun _ =>
        bind (inside _ (careful_expr context table iter whole.1.1.2)) fun _ =>
          bind (inside _ (careful_block options body whole.1.2 0 context _)) fun _ => ok _
  | .pass, _, _, _ => ok _
  | .breakLoop, _, _, _ => ok _
  | .continueLoop, _, _, _ => ok _
  | .raise exc, whole, context, table => careful_raise whole
  | .assert test message, whole, context, table => by
    simp only [Stmt.isWhole, Bool.and_eq_true] at whole
    exact careful_assertion whole.1 whole.2
  | .classDef name body, _, _, _ => unsupportedStmt _ _
  | .importNames names, _, _, _ => unsupportedStmt _ _
  | .importFrom origin names, _, _, _ => unsupportedStmt _ _
  | .globalNames names, _, _, _ => unsupportedStmt _ _
  | .nonlocalNames names, _, _, _ => unsupportedStmt _ _
  | .delete targets, _, _, _ => unsupportedStmt _ _
  | .tryBlock body orelse finalbody, _, _, _ => unsupportedStmt _ _
  | .withBlock items body, _, _, _ => unsupportedStmt _ _

theorem careful_block (options : Options) : (statements : List Stmt) →
    Stmt.allWhole gaps statements → ∀ number context table,
      Careful gaps (block options number statements context table)
  | [], _, _, _, _ => ok _
  | first :: rest, whole, number, context, table => by
    simp only [Stmt.allWhole, Bool.and_eq_true] at whole
    exact bind (inside _ (careful_stmt options first whole.1 context table)) fun _ =>
      bind (careful_block options rest whole.2 _ context _) fun _ => ok _

theorem careful_firstOf (options : Options) : (statements : List Stmt) →
    Stmt.allWhole gaps statements → ∀ context table,
      Careful gaps (firstOf options statements context table)
  | [], _, _, _ => ok _
  | first :: rest, whole, context, table => by
    simp only [Stmt.allWhole, Bool.and_eq_true] at whole
    exact careful_stmt options first whole.1 context table

/-- A function is lowered carefully if it is whole. -/
theorem careful_function (options : Options) : (definition : FunctionOf Stmt) →
    FunctionDef.isWhole gaps definition → ∀ context table,
      Careful gaps (function options definition context table)
  | ⟨name, parameters, body, decorators, returns⟩, whole, context, table => by
    simp only [FunctionDef.isWhole, Bool.and_eq_true] at whole
    rw [function]
    split
    · exact inside _ (fail rfl)
    · exact bind (inside _ (careful_params options parameters)) fun _ =>
        bind (careful_result options returns) fun _ =>
          bind (inside _ (careful_block options body whole.1.2 0 context _)) fun _ => ok _

end

/-! ### Modules -/

/-- The functions of a module are lowered carefully if they are whole. -/
theorem careful_functions (options : Options) (table : Table) {statements : List Stmt}
    (whole : Stmt.allWhole gaps statements) (number : Nat) :
    Careful gaps (functions options table number statements) := by
  induction statements generalizing number with
  | nil => exact ok []
  | cons first rest inductionHypothesis =>
    simp only [Stmt.allWhole, Bool.and_eq_true] at whole
    refine bind (inside _ ?_) fun _ => bind (inductionHypothesis whole.2 _) fun _ => ok _
    cases first with
    | functionDef definition => exact careful_function options definition whole.1 _ table
    | asyncFunctionDef definition => exact careful_function options definition whole.1 _ table
    | _ => exact ok []

/-- What a module runs at its start is whole if the module is. -/
theorem isWhole_of_mem_mainPart {statement part : Stmt} (whole : statement.isWhole gaps)
    (member : part ∈ mainPart statement) : part.isWhole gaps := by
  unfold mainPart at member
  split at member
  · cases member
  · cases member
  · cases member
  · cases member
  · rename_i test body orelse
    split at member
    · simp only [Stmt.isWhole, Bool.and_eq_true] at whole
      exact stmts_allWhole_iff.mp whole.1.2 part member
    · exact List.mem_singleton.mp member ▸ whole
  · exact List.mem_singleton.mp member ▸ whole

/-- The statements that are gathered into the main function are whole. -/
theorem isWhole_mainFunction {source : Module} (whole : source.isWhole gaps) :
    FunctionDef.isWhole gaps (mainFunction (source.body.flatMap mainPart)) := by
  have body : Stmt.allWhole gaps (source.body.flatMap mainPart) := by
    refine stmts_allWhole_iff.mpr fun part member => ?_
    obtain ⟨statement, among, inPart⟩ := List.mem_flatMap.mp member
    exact isWhole_of_mem_mainPart (stmts_allWhole_iff.mp whole statement among) inPart
  simp only [mainFunction, FunctionOf.empty, FunctionDef.isWhole, body, Expr.paramsWhole,
    Expr.isWholeOrAbsent, Expr.isAbsent, Bool.true_or, Bool.and_true]
  decide

/-- The lowering of a whole module is careful. -/
theorem careful_module (options : Options) (table : Table) {source : Module}
    (whole : source.isWhole gaps) : Careful gaps (module options table source).2 := by
  unfold module
  dsimp only
  split
  · rename_i failure failed
    intro other same
    cases same
    exact careful_functions options _ whole 0 failure failed
  split
  · exact ok _
  split
  · exact fail rfl
  · exact bind (inside _ (careful_function options _ (isWhole_mainFunction whole) _ _)) fun _ =>
      ok _

end Oxide.Lower

namespace Oxide.Read

open Document

/-- Every module that is read is whole, with gaps only where a list of expressions holds a null. So
its lowering never comes upon a statement that is not there, and upon an expression that is not
there only if there is such a null. -/
theorem moduleOfNode_isWhole {node : Node} {source : Module}
    (read : moduleOfNode node = .ok source) :
    source.isWhole true ∧ (¬ Role.document.HasGap node → source.isWhole false) ∧
      ∀ options table failure, (Lower.module options table source).2 = .error failure →
        failure.cause ≠ .absentStmt ∧
          (failure.cause = .absentExpr → Role.document.HasGap node) := by
  have result : Role.document.result node = some source := by
    simp only [Role.result, read, toOption_ok]
  have whole : source.isWhole true := Role.sound_result .document node (fun _ => rfl) source result
  have wholeWithoutGaps (none : ¬ Role.document.HasGap node) : source.isWhole false :=
    Role.sound_result .document node (fun gap => absurd gap none) source result
  refine ⟨whole, wholeWithoutGaps,
    fun options table failure failed => ⟨fun cause => ?_, fun cause => ?_⟩⟩
  · have permitted := Lower.careful_module options table whole failure failed
    rw [cause] at permitted
    cases permitted
  · by_contra none
    have permitted :=
      Lower.careful_module options table (wholeWithoutGaps none) failure failed
    rw [cause] at permitted
    cases permitted

/-- A list that holds a null is read, but it cannot be lowered. -/
theorem moduleOfNode_isWhole_null :
    let source : Module := ⟨[.expr (.list [.name "x", .absent]), .ret .absent]⟩
    let node := source.toNode
    moduleOfNode node = .ok source ∧ source.isWhole true ∧ ¬ source.isWhole false ∧
      (∃ failure, (Lower.module {} .new source).2 = .error failure ∧
        failure.cause = .absentExpr) ∧ Role.document.HasGap node := by
  intro source node
  have read : moduleOfNode node = .ok source := moduleOfNode_of_holds (by decide) (.refl _)
  obtain ⟨whole, -, causes⟩ := moduleOfNode_isWhole read
  have failed : ∃ failure, (Lower.module {} .new source).2 = .error failure ∧
      failure.cause = .absentExpr := ⟨_, rfl, rfl⟩
  obtain ⟨failure, atFailure, cause⟩ := failed
  exact ⟨read, whole, by decide, ⟨failure, atFailure, cause⟩,
    (causes _ _ failure atFailure).2 cause⟩

end Oxide.Read
