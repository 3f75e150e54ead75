/-
This file says which names are variables or parameters in a table, for every way in which the
lowering makes a table from another one. Only the definition of a function can take a name away
from the variables, because it hides what the name stood for before.
-/

import Oxide.Lower.Stmt

namespace Oxide

/-! ### Look-up -/

namespace Bindings

/-- The last symbol of a name is the one that is found. -/
theorem find?_insert_self (name : String) (symbol : Symbol) (bindings : Bindings) :
    find? name (insert name symbol bindings) = some symbol := by
  fun_induction insert name symbol bindings with
  | case1 => simp [find?]
  | case2 => simp [find?]
  | case3 => simp [find?]
  | case4 other old rest _ different inductionHypothesis =>
    rw [find?, if_neg different, inductionHypothesis]

theorem find?_insert_of_ne {name other : String} (different : other ≠ name) (symbol : Symbol)
    (bindings : Bindings) : find? other (insert name symbol bindings) = find? other bindings := by
  fun_induction insert name symbol bindings with
  | case1 => simp [find?, different]
  | case2 => simp [find?, different]
  | case3 => simp [find?, different]
  | case4 _ _ _ _ _ inductionHypothesis => rw [find?, inductionHypothesis, find?]

end Bindings

namespace Table

/-- A name is looked up in the innermost scope first, then in the scopes around it. -/
theorem lookup_eq_parts (table : Table) (name : String) :
    table.lookup name = (table.parts.1 :: table.parts.2).findSome? fun scope =>
      Bindings.find? name scope.bindings := by
  obtain ⟨scopes⟩ := table
  cases scopes with
  | nil => rfl
  | cons inner outer => rfl

theorem lookup_insert_self (table : Table) (name : String) (symbol : Symbol) :
    (table.insert name symbol).lookup name = some symbol := by
  simp [insert, lookup, Bindings.find?_insert_self]

/-- An insertion leaves the other names as they are. -/
theorem lookup_insert_of_ne (table : Table) {name other : String} (different : other ≠ name)
    (symbol : Symbol) : (table.insert name symbol).lookup other = table.lookup other := by
  rw [lookup_eq_parts table]
  simp only [insert, lookup, List.findSome?_cons, Bindings.find?_insert_of_ne different]

/-- A new scope hides nothing. -/
theorem lookup_push (table : Table) (kind : ScopeKind) (scope name : String) :
    (table.push kind scope).lookup name = table.lookup name := by
  rw [lookup_eq_parts table]
  simp only [push, lookup, List.findSome?_cons, Bindings.find?]

end Table

/-! ### Variables and parameters -/

namespace Lower

variable {table : Table} {x : String}

theorem isBound_insert_self (table : Table) (name : String) (symbol : Symbol) :
    isBound (table.insert name symbol) name = symbol.isValue := by
  rw [isBound, Table.lookup_insert_self]

theorem isBound_insert_of_ne {name : String} (different : x ≠ name) (symbol : Symbol) :
    isBound (table.insert name symbol) x = isBound table x := by
  rw [isBound, Table.lookup_insert_of_ne table different, isBound]

/-- A symbol that holds a value binds its name and no other. -/
theorem isBound_insert_of_isValue {name : String} {symbol : Symbol} (value : symbol.isValue) :
    isBound (table.insert name symbol) x ↔ x = name ∨ isBound table x := by
  by_cases same : x = name
  · subst same
    simp [isBound_insert_self, value]
  · simp [isBound_insert_of_ne same, same]

@[simp] theorem isBound_push (table : Table) (kind : ScopeKind) (scope x : String) :
    isBound (table.push kind scope) x = isBound table x := by
  rw [isBound, Table.lookup_push, isBound]

/-- A function takes its name away from a variable of that name. -/
theorem isBound_register {definition : FunctionDef} :
    isBound (register table definition) x ↔ x ≠ definition.name ∧ isBound table x := by
  by_cases same : x = definition.name
  · subst same
    simp [register, isBound_insert_self, Symbol.isValue]
  · simp [register, isBound_insert_of_ne same, same]

/-- A name is bound once it is assigned to, whatever it was before. -/
theorem isBound_bindName {name : String} {hint : Expr} :
    isBound (bindName table name hint) x ↔ x = name ∨ isBound table x := by
  unfold bindName
  split
  · rename_i bound
    refine ⟨.inr, ?_⟩
    rintro (rfl | xBound)
    · exact bound
    · exact xBound
  · exact isBound_insert_of_isValue rfl

mutual

/-- The names that a target binds. -/
def targetNames : Expr → List String
  | .name id => [id]
  | .tuple items => targetsNames items
  | _ => []

/-- The names that several targets bind. -/
def targetsNames : List Expr → List String
  | [] => []
  | first :: rest => targetNames first ++ targetsNames rest

end

theorem targetsNames_map_name (names : List String) : targetsNames (names.map .name) = names := by
  induction names with
  | nil => rfl
  | cons first rest inductionHypothesis =>
    rw [List.map_cons, targetsNames, targetNames, inductionHypothesis, List.singleton_append]

mutual

/-- A target binds its names, and all other names stay as they are. -/
theorem isBound_bindTarget (place hint : Expr) (table : Table) :
    isBound (bindTarget place hint table) x ↔ x ∈ targetNames place ∨ isBound table x := by
  cases place with
  | name id => rw [bindTarget, isBound_bindName, targetNames, List.mem_singleton]
  | tuple items => rw [bindTarget, isBound_bindTargets items table, targetNames]
  | _ => simp [bindTarget, targetNames]

theorem isBound_bindTargets : (places : List Expr) → (table : Table) →
    (isBound (bindTargets places table) x ↔ x ∈ targetsNames places ∨ isBound table x)
  | [], _ => by simp [bindTargets, targetsNames]
  | first :: rest, table => by
    rw [bindTargets, isBound_bindTargets rest, isBound_bindTarget first, targetsNames,
      List.mem_append, or_left_comm, or_assoc]

end

/-! ### Statements -/

/-- The names that a statement binds itself, not counting those inside its blocks. -/
def boundBy : Stmt → List String
  | .assign targets _ => targetsNames targets
  | .annAssign target _ _ => targetNames target
  | .augAssign target _ _ => targetNames target
  | _ => []

/-- Whether a statement defines a function. -/
def isDefinition (value : Stmt) : Bool :=
  value.function?.isSome

/-- A statement other than a definition binds what it assigns to, and unbinds nothing. -/
theorem isBound_bindStmt {value : Stmt} (simple : ¬ isDefinition value) :
    isBound (bindStmt table value) x ↔ x ∈ boundBy value ∨ isBound table x := by
  cases value with
  | functionDef _ => exact absurd rfl simple
  | asyncFunctionDef _ => exact absurd rfl simple
  | assign targets _ => exact isBound_bindTargets targets table
  | annAssign target hint _ => exact isBound_bindTarget target hint table
  | augAssign target _ _ => exact isBound_bindTarget target .absent table
  | _ => simp [bindStmt, boundBy]

/-- The names of the functions that a statement defines. -/
def definedBy (value : Stmt) : List String :=
  (value.function?.map FunctionOf.name).toList

/-- Only the definition of a function can unbind a name. -/
theorem isBound_bindStmt_of_isBound {value : Stmt} {x : String} (bound : isBound table x)
    (other : x ∉ definedBy value) : isBound (bindStmt table value) x := by
  have register {definition : FunctionDef} (other : x ∉ [definition.name]) :
      isBound (register table definition) x :=
    isBound_register.mpr ⟨fun same => other (List.mem_singleton.mpr same), bound⟩
  by_cases defines : isDefinition value
  · cases value with
    | functionDef definition => exact register other
    | asyncFunctionDef definition => exact register other
    | _ => cases defines
  · exact (isBound_bindStmt defines).mpr (.inr bound)

/-- A name that a statement does not bind is not bound behind it. -/
theorem not_isBound_bindStmt {value : Stmt} {x : String} (free : ¬ isBound table x)
    (unbound : x ∉ boundBy value) : ¬ isBound (bindStmt table value) x := by
  by_cases defines : isDefinition value
  · have register {definition : FunctionDef} : ¬ isBound (register table definition) x :=
      fun bound => free (isBound_register.mp bound).2
    cases value with
    | functionDef definition => exact register
    | asyncFunctionDef definition => exact register
    | _ => cases defines
  · rw [isBound_bindStmt defines, not_or]
    exact ⟨unbound, free⟩

theorem not_isDefinition_of_mem_boundBy {value : Stmt} (bound : x ∈ boundBy value) :
    ¬ isDefinition value := by
  cases value with
  | functionDef _ => cases bound
  | asyncFunctionDef _ => cases bound
  | _ => exact Bool.false_ne_true

mutual

/-- A statement and all statements inside its blocks, in the order of the text. -/
def within : Stmt → List Stmt
  | .ifElse test body orelse =>
    .ifElse test body orelse :: (withinAll body ++ withinAll orelse)
  | .whileLoop test body orelse =>
    .whileLoop test body orelse :: (withinAll body ++ withinAll orelse)
  | .forLoop place iter body orelse =>
    .forLoop place iter body orelse :: (withinAll body ++ withinAll orelse)
  | other => [other]

/-- The statements of a block and all statements inside them. -/
def withinAll : List Stmt → List Stmt
  | [] => []
  | first :: rest => within first ++ withinAll rest

end

theorem mem_within_self (value : Stmt) : value ∈ within value := by
  cases value <;> simp [within]

theorem withinAll_append (first second : List Stmt) :
    withinAll (first ++ second) = withinAll first ++ withinAll second := by
  induction first with
  | nil => rfl
  | cons value rest inductionHypothesis =>
    rw [List.cons_append, withinAll, inductionHypothesis, withinAll, List.append_assoc]

/-- The statements of a block are among the statements inside it. -/
theorem mem_withinAll_of_mem {value : Stmt} {body : List Stmt} (member : value ∈ body) :
    value ∈ withinAll body := by
  induction body with
  | nil => cases member
  | cons first rest inductionHypothesis =>
    rw [withinAll, List.mem_append]
    rcases List.mem_cons.mp member with rfl | inRest
    · exact .inl (mem_within_self value)
    · exact .inr (inductionHypothesis inRest)

/-- The names that a statement assigns to, with a hint or without. -/
def assignedBy : Stmt → List String
  | .assign targets _ => targetsNames targets
  | .annAssign target _ _ => targetNames target
  | _ => []

/-- What is assigned to is bound, and so are other names. -/
theorem assignedBy_subset_boundBy (value : Stmt) : assignedBy value ⊆ boundBy value := by
  cases value <;> simp [assignedBy, boundBy]

theorem isBound_bindParams {params : List Param} :
    isBound (bindParams table params) x ↔ x ∈ params.map ParamOf.name ∨ isBound table x := by
  unfold bindParams
  induction params generalizing table with
  | nil => simp
  | cons first rest inductionHypothesis =>
    rw [List.foldl_cons, inductionHypothesis, isBound_insert_of_isValue rfl, List.map_cons,
      List.mem_cons, or_left_comm, or_assoc]

/-- In a function its parameters are bound, besides what is bound around it. -/
theorem isBound_entryTable {name : String} {params : List Param} :
    isBound (entryTable table name params) x ↔
      x ∈ params.map ParamOf.name ∨ isBound table x := by
  rw [entryTable, isBound_bindParams, isBound_push]

/-- The variables declared in front are bound in the body. -/
theorem isBound_foldl_declare {declarations : List Declaration} :
    isBound (declarations.foldl Declaration.declare table) x ↔
      x ∈ declarations.map Declaration.name ∨ isBound table x := by
  induction declarations generalizing table with
  | nil => simp
  | cons first rest inductionHypothesis =>
    rw [List.foldl_cons, inductionHypothesis, Declaration.declare, isBound_insert_of_isValue rfl,
      List.map_cons, List.mem_cons, or_left_comm, or_assoc]

end Lower

end Oxide
