/-
This file says what the lowering sees of a table: whether a name is bound at all, and whether it is
a variable or a parameter. How many scopes there are and of which kinds, what they hide, and what
the definitions in them look like makes no difference.

Two lowerings are followed side by side, with tables whose symbols are related name by name. The
relation is kept by everything that the lowering does to a table, and whatever is asked about a
name has the same answer in both tables, so the two lowerings give the same stream or the same
failure.
-/

import Oxide.Lower.Stmt
import Oxide.Proofs.Hoisting

namespace Oxide

/-! ### Related tables -/

/-- Two symbols of one class: both are functions, or both are variables or parameters. -/
inductive Symbol.SameClass : Symbol → Symbol → Prop where
  | function (first second : FunctionDef) : SameClass (.function first) (.function second)
  | value {first second : Symbol} (firstValue : first.isValue) (secondValue : second.isValue) :
      SameClass first second

/-- Two tables in which the same names are bound, each of them to two symbols that are related. -/
def Table.Related (related : Symbol → Symbol → Prop) (first second : Table) : Prop :=
  ∀ name, Option.Rel related (first.lookup name) (second.lookup name)

namespace Table.Related

variable {related : Symbol → Symbol → Prop} {first second : Table}

theorem isSome_eq (alike : first.Related related second) (name : String) :
    (first.lookup name).isSome = (second.lookup name).isSome := by
  have same := alike name
  generalize first.lookup name = old, second.lookup name = new at same
  cases same with
  | some _ => rfl
  | none => rfl

theorem push (alike : first.Related related second) (kind : ScopeKind) (scope : String) :
    (first.push kind scope).Related related (second.push kind scope) := by
  intro name
  rw [lookup_push, lookup_push]
  exact alike name

/-- Tables that are alike stay so if a name gets symbols that are. -/
theorem insert (alike : first.Related related second) (name : String) {old new : Symbol}
    (same : related old new) :
    (first.insert name old).Related related (second.insert name new) := by
  intro other
  by_cases isName : other = name
  · subst isName
    rw [lookup_insert_self, lookup_insert_self]
    exact .some same
  · rw [lookup_insert_of_ne first isName, lookup_insert_of_ne second isName]
    exact alike other

end Table.Related

namespace Lower

/-- A relation of symbols that tells values from everything else, and in which all symbols that the
lowering binds are related to themselves. -/
structure Discerning (related : Symbol → Symbol → Prop) : Prop where
  isValue_eq {first second : Symbol} (same : related first second) : first.isValue = second.isValue
  ofFunction (definition : FunctionDef) : related (.function definition) (.function definition)
  ofValue {symbol : Symbol} (isValue : symbol.isValue) : related symbol symbol

/-- The class of a symbol tells values from everything else. -/
theorem discerning_sameClass : Discerning Symbol.SameClass where
  isValue_eq same := by
    cases same with
    | function => rfl
    | value firstValue secondValue => rw [firstValue, secondValue]
  ofFunction definition := .function definition definition
  ofValue isValue := .value isValue isValue

theorem discerning_eq : Discerning Eq where
  isValue_eq same := by rw [same]
  ofFunction _ := rfl
  ofValue _ := rfl

variable {related : Symbol → Symbol → Prop} {first second : Table} {options : Options}

/-- Tables that are alike bind the same names. -/
theorem isBound_eq_of_related (discerning : Discerning related)
    (alike : first.Related related second) (name : String) :
    isBound first name = isBound second name := by
  have same := alike name
  unfold isBound
  generalize first.lookup name = old, second.lookup name = new at same
  cases same with
  | some same => exact discerning.isValue_eq same
  | none => rfl

/-! ### What the lowering does to tables -/

/-- A function is registered alike in tables that are alike. -/
theorem related_register (discerning : Discerning related) (alike : first.Related related second)
    (definition : FunctionDef) :
    (register first definition).Related related (register second definition) :=
  alike.insert definition.name (discerning.ofFunction definition)

theorem related_bindName (discerning : Discerning related) (alike : first.Related related second)
    (name : String) (hint : Expr) :
    (bindName first name hint).Related related (bindName second name hint) := by
  unfold bindName
  rw [isBound_eq_of_related discerning alike name]
  split
  · exact alike
  · exact alike.insert name (discerning.ofValue rfl)

mutual

theorem related_bindTarget (discerning : Discerning related) {first second : Table}
    (alike : first.Related related second) (place hint : Expr) :
    (bindTarget place hint first).Related related (bindTarget place hint second) := by
  cases place with
  | name id =>
    rw [bindTarget, bindTarget]
    exact related_bindName discerning alike id hint
  | tuple items =>
    rw [bindTarget, bindTarget]
    exact related_bindTargets discerning alike items
  | _ =>
    simp only [bindTarget]
    exact alike

theorem related_bindTargets (discerning : Discerning related) {first second : Table}
    (alike : first.Related related second) : (places : List Expr) →
    (bindTargets places first).Related related (bindTargets places second)
  | [] => alike
  | place :: rest => by
    rw [bindTargets, bindTargets]
    exact related_bindTargets discerning (related_bindTarget discerning alike place .absent) rest

end

/-- A statement binds its names alike in tables that are alike. -/
theorem related_bindStmt (discerning : Discerning related) (alike : first.Related related second)
    (value : Stmt) : (bindStmt first value).Related related (bindStmt second value) := by
  cases value with
  | functionDef definition => exact related_register discerning alike definition
  | asyncFunctionDef definition => exact related_register discerning alike definition
  | assign targets _ => exact related_bindTargets discerning alike targets
  | annAssign place hint _ => exact related_bindTarget discerning alike place hint
  | augAssign place _ _ => exact related_bindTarget discerning alike place .absent
  | _ => exact alike

theorem related_entryTable (discerning : Discerning related) (alike : first.Related related second)
    (name : String) (parameters : List Param) :
    (entryTable first name parameters).Related related (entryTable second name parameters) := by
  have pushed := alike.push .function name
  unfold entryTable bindParams
  generalize first.push .function name = outer, second.push .function name = other at pushed
  induction parameters generalizing outer other with
  | nil => exact pushed
  | cons parameter rest inductionHypothesis =>
    exact inductionHypothesis _ _ (pushed.insert parameter.name (discerning.ofValue rfl))

theorem related_declare (discerning : Discerning related) (alike : first.Related related second)
    (declarations : List Declaration) :
    (declarations.foldl Declaration.declare first).Related related
      (declarations.foldl Declaration.declare second) := by
  induction declarations generalizing first second with
  | nil => exact alike
  | cons declaration rest inductionHypothesis =>
    exact inductionHypothesis (alike.insert declaration.name (discerning.ofValue rfl))

/-- The names to declare in front of a body are found by asking for variables and parameters. -/
theorem declarations_eq_of_related (discerning : Discerning related)
    (alike : first.Related related second) (body : List Stmt) :
    declarations first body = declarations second body := by
  have sameMeet : meet first = meet second := by
    funext hoisting occurrence
    simp only [meet, hoistName, isBound_eq_of_related discerning alike]
  rw [declarations, declarations, hoistBlock_eq_foldl, hoistBlock_eq_foldl, sameMeet]

/-! ### Expressions -/

/-- The same functions are known by name in tables that are alike. -/
theorem specialCall?_eq_of_related (alike : first.Related related second) (function : Expr)
    (arguments : List Expr) (streams : List Stream) :
    specialCall? first function arguments streams =
      specialCall? second function arguments streams := by
  cases function with
  | name id => rw [specialCall?, specialCall?, alike.isSome_eq id]
  | _ => rfl

mutual

/-- An expression only asks whether the names of the functions that it calls are bound. -/
theorem expr_eq_of_related (alike : first.Related related second) (context : Context) :
    (value : Expr) → expr context first value = expr context second value
  | .absent => by rw [expr, expr]
  | .constant value => by rw [expr, expr]
  | .name id => by rw [expr, expr]
  | .binOp left op right => by
    rw [expr, expr, expr_eq_of_related alike context left, expr_eq_of_related alike context right]
  | .unaryOp op value => by rw [expr, expr, expr_eq_of_related alike context value]
  | .boolOp op values => by rw [expr, expr, parts_eq_of_related alike context values]
  | .compare left ops comparators => by
    rw [expr, expr, expr_eq_of_related alike context left,
      parts_eq_of_related alike context comparators]
  | .call function arguments keywords => by
    rw [expr, expr, parts_eq_of_related alike context arguments,
      expr_eq_of_related alike context function]
    simp only [specialCall?_eq_of_related alike]
  | .attribute value attr => by rw [expr, expr, expr_eq_of_related alike context value]
  | .subscript value slice => by
    rw [expr, expr, expr_eq_of_related alike context value, expr_eq_of_related alike context slice]
  | .list items => by rw [expr, expr, parts_eq_of_related alike context items]
  | .tuple items => by rw [expr, expr, parts_eq_of_related alike context items]
  | .await value => by rw [expr, expr, expr_eq_of_related alike context value]
  | .lambda parameters body => by rw [expr, expr]
  | .dict keys values => by rw [expr, expr]
  | .joinedStr values => by rw [expr, expr]

theorem parts_eq_of_related (alike : first.Related related second) (context : Context) :
    (items : List Expr) → parts context first items = parts context second items
  | [] => by rw [parts, parts]
  | item :: rest => by
    rw [parts, parts, expr_eq_of_related alike context item,
      parts_eq_of_related alike context rest]

end

/-! ### Statements -/

theorem target_eq_of_related (discerning : Discerning related)
    (alike : first.Related related second) (context : Context) (type? : Option Ty) (place : Expr) :
    target context first type? place = target context second type? place := by
  have sameBound : isBound first = isBound second :=
    funext (isBound_eq_of_related discerning alike)
  cases place with
  | name id => rw [target, target, sameBound]
  | tuple items => rw [target, target, unpacking, unpacking, sameBound]
  | «attribute» value attr => exact expr_eq_of_related alike context _
  | subscript value slice => exact expr_eq_of_related alike context _
  | _ => rfl

theorem assign_eq_of_related (discerning : Discerning related)
    (alike : first.Related related second) (context : Context) (targets : List Expr)
    (value : Expr) : assign context first targets value = assign context second targets value := by
  unfold assign
  simp only [expr_eq_of_related alike context, target_eq_of_related discerning alike context]

theorem augAssign_eq_of_related (alike : first.Related related second) (context : Context)
    (place : Expr) (op : String) (value : Expr) :
    augAssign context first place op value = augAssign context second place op value := by
  unfold augAssign
  simp only [expr_eq_of_related alike context]

theorem annAssign_eq_of_related (discerning : Discerning related)
    (alike : first.Related related second) (context : Context) (place hint value : Expr) :
    annAssign context options first place hint value =
      annAssign context options second place hint value := by
  unfold annAssign
  simp only [expr_eq_of_related alike context, target_eq_of_related discerning alike context,
    isBound_eq_of_related discerning alike]

theorem raise_eq_of_related (alike : first.Related related second) (context : Context)
    (exc : Expr) : raise context first exc = raise context second exc := by
  unfold raise
  simp only [expr_eq_of_related alike context]

theorem assertion_eq_of_related (alike : first.Related related second) (context : Context)
    (test message : Expr) :
    assertion context first test message = assertion context second test message := by
  unfold assertion
  simp only [expr_eq_of_related alike context]

mutual

/-- A statement is lowered alike in tables that are alike, by induction over the statement. -/
theorem stmt_eq_of_related (discerning : Discerning related) {first second : Table}
    (alike : first.Related related second) : (value : Stmt) → (context : Context) →
    stmt options value context first = stmt options value context second
  | .absent, context => by rw [stmt, stmt]
  | .functionDef definition, context => by
    rw [stmt, stmt, function_eq_of_related discerning alike definition context]
  | .asyncFunctionDef definition, context => by
    rw [stmt, stmt, function_eq_of_related discerning alike definition _]
  | .expr value, context => by rw [stmt, stmt, expr_eq_of_related alike]
  | .assign targets value, context => by
    rw [stmt, stmt, assign_eq_of_related discerning alike]
  | .augAssign place op value, context => by rw [stmt, stmt, augAssign_eq_of_related alike]
  | .annAssign place hint value, context => by
    rw [stmt, stmt, annAssign_eq_of_related discerning alike]
  | .ret value, context => by rw [stmt, stmt, expr_eq_of_related alike]
  | .ifElse test body orelse, context => by
    rw [stmt, stmt, expr_eq_of_related alike,
      block_eq_of_related discerning (alike.push .block "if") 0 body context,
      firstOf_eq_of_related discerning alike orelse context,
      block_eq_of_related discerning (alike.push .block "else") 0 orelse context]
  | .whileLoop test body orelse, context => by
    rw [stmt, stmt, block_eq_of_related discerning (alike.push .block "while") 0 body context,
      expr_eq_of_related alike]
  | .forLoop place iter body orelse, context => by
    have inside := related_bindTarget discerning (alike.push .block "for") place .absent
    rw [stmt, stmt, expr_eq_of_related alike, block_eq_of_related discerning inside 0 body context]
  | .pass, context => by rw [stmt, stmt]
  | .breakLoop, context => by rw [stmt, stmt]
  | .continueLoop, context => by rw [stmt, stmt]
  | .raise exc, context => by rw [stmt, stmt, raise_eq_of_related alike]
  | .assert test message, context => by rw [stmt, stmt, assertion_eq_of_related alike]
  | .classDef name body, context => by rw [stmt, stmt]
  | .importNames names, context => by rw [stmt, stmt]
  | .importFrom origin names, context => by rw [stmt, stmt]
  | .globalNames names, context => by rw [stmt, stmt]
  | .nonlocalNames names, context => by rw [stmt, stmt]
  | .delete targets, context => by rw [stmt, stmt]
  | .tryBlock body orelse finalbody, context => by rw [stmt, stmt]
  | .withBlock items body, context => by rw [stmt, stmt]

theorem block_eq_of_related (discerning : Discerning related) {first second : Table}
    (alike : first.Related related second) :
    (number : Nat) → (body : List Stmt) → (context : Context) →
    block options number body context first = block options number body context second
  | number, [], context => by rw [block, block]
  | number, value :: rest, context => by
    have behind := related_bindStmt discerning alike value
    rw [block, block, stmt_eq_of_related discerning alike value context,
      block_eq_of_related discerning behind (number + 1) rest context]

theorem firstOf_eq_of_related (discerning : Discerning related) {first second : Table}
    (alike : first.Related related second) : (body : List Stmt) → (context : Context) →
    firstOf options body context first = firstOf options body context second
  | [], context => by rw [firstOf, firstOf]
  | value :: rest, context => by
    rw [firstOf, firstOf, stmt_eq_of_related discerning alike value context]

/-- A function is lowered to the same stream or fails alike with tables that are related. -/
theorem function_eq_of_related (discerning : Discerning related) {first second : Table}
    (alike : first.Related related second) : (definition : FunctionOf Stmt) →
    (context : Context) →
    function options definition context first = function options definition context second
  | ⟨name, parameters, body, decorators, returns⟩, context => by
    have entry := related_entryTable discerning alike name parameters
    have declared := related_declare discerning entry
      (declarations (entryTable second name parameters) body)
    simp only [function, declarations_eq_of_related discerning entry,
      block_eq_of_related discerning declared 0 body context]

end

/-- Of a table only the class of each name matters: not bound, a function, or a variable or
parameter. Tables that agree on the classes give the same stream or the same failure for every
statement and every function, and still agree behind every statement. -/
theorem lowering_sees_only_classes (alike : first.Related Symbol.SameClass second) :
    (∀ (options : Options) (value : Stmt) (context : Context),
      stmt options value context first = stmt options value context second) ∧
    (∀ (options : Options) (definition : FunctionDef) (context : Context),
      function options definition context first = function options definition context second) ∧
    ∀ value : Stmt, (bindStmt first value).Related Symbol.SameClass (bindStmt second value) :=
  ⟨fun _ => stmt_eq_of_related discerning_sameClass alike,
    fun _ => function_eq_of_related discerning_sameClass alike,
    related_bindStmt discerning_sameClass alike⟩

/-- A function and a variable in one scope, and the same names in two scopes, where the inner one
holds a parameter and hides a function. -/
theorem lowering_sees_only_classes_through_scopes :
    let flat := (Table.new.insert "f" (.function (.empty "f"))).insert "x" (.variable "x" .absent)
    let deep := ((Table.new.insert "x" (.function (.empty "x"))).insert "f"
      (.function { FunctionOf.empty "f" with body := [.pass] })).push .function "g" |>.insert "x"
        (.param ⟨"x", .positional, .name "int", .absent⟩)
    let value : Stmt := .assign [.name "x"] (.call (.name "f") [.name "x"] [])
    flat.Related Symbol.SameClass deep ∧
      (∃ stream, stmt {} value .module flat = .ok stream ∧
        stmt {} value .module deep = .ok stream) ∧
      function {} { FunctionOf.empty "h" with body := [value] } .module flat =
        function {} { FunctionOf.empty "h" with body := [value] } .module deep ∧
      (bindStmt flat (.functionDef (.empty "x"))).Related Symbol.SameClass
        (bindStmt deep (.functionDef (.empty "x"))) := by
  intro flat deep value
  have alike : flat.Related Symbol.SameClass deep := by
    intro name
    by_cases isX : name = "x"
    · subst isX
      exact .some (.value rfl rfl)
    by_cases isF : name = "f"
    · subst isF
      exact .some (.function _ _)
    simp only [flat, deep, Table.lookup_insert_of_ne _ isX, Table.lookup_insert_of_ne _ isF,
      Table.lookup_push]
    exact .none
  obtain ⟨sameStmt, sameFunction, related⟩ := lowering_sees_only_classes alike
  obtain ⟨stream, lowered⟩ : ∃ stream, stmt {} value .module flat = .ok stream := ⟨_, rfl⟩
  exact ⟨alike, ⟨stream, lowered, sameStmt {} value .module ▸ lowered⟩, sameFunction {} _ .module,
    related _⟩

end Lower

end Oxide
