/-
This file says which names are declared in front of the body of a function. The walk that finds
them meets the names that assignments bind, one after another in the order of the text, so it is
one fold over the list of these occurrences. A name is declared in front exactly if it is no
variable or parameter yet and its first occurrence lies inside a block.
-/

import Mathlib.Data.List.Nodup
import Oxide.Proofs.BoundNames

namespace Oxide.Lower

/-! ### Occurrences -/

/-- A name where an assignment binds it, with its hint, inside a block of the function or not. -/
structure Occurrence where
  name : String
  hint : Expr
  nested : Bool

mutual

/-- The occurrences in a target. -/
def targetOccurrences (nested : Bool) : Expr → Expr → List Occurrence
  | .name id, hint => [⟨id, hint, nested⟩]
  | .tuple items, _ => targetsOccurrences nested items
  | _, _ => []

/-- The occurrences in several targets. -/
def targetsOccurrences (nested : Bool) : List Expr → List Occurrence
  | [] => []
  | first :: rest => targetOccurrences nested first .absent ++ targetsOccurrences nested rest

end

mutual

/-- The occurrences in a statement, in the order of the text; definitions are not entered. -/
def stmtOccurrences (nested : Bool) : Stmt → List Occurrence
  | .assign targets _ => targetsOccurrences nested targets
  | .annAssign target hint _ => targetOccurrences nested target hint
  | .ifElse _ body orelse => blockOccurrences true body ++ blockOccurrences true orelse
  | .whileLoop _ body orelse => blockOccurrences true body ++ blockOccurrences true orelse
  | .forLoop _ _ body orelse => blockOccurrences true body ++ blockOccurrences true orelse
  | _ => []

/-- The occurrences in the statements of a block. -/
def blockOccurrences (nested : Bool) : List Stmt → List Occurrence
  | [] => []
  | first :: rest => stmtOccurrences nested first ++ blockOccurrences nested rest

end

/-- Names occur in the order of the statements. -/
theorem blockOccurrences_append (nested : Bool) (first second : List Stmt) :
    blockOccurrences nested (first ++ second) =
      blockOccurrences nested first ++ blockOccurrences nested second := by
  induction first with
  | nil => rfl
  | cons head rest inductionHypothesis =>
    rw [List.cons_append, blockOccurrences, inductionHypothesis, blockOccurrences,
      List.append_assoc]

mutual

/-- The names that occur in a target are the names that it binds. -/
theorem map_name_targetOccurrences (nested : Bool) (place hint : Expr) :
    (targetOccurrences nested place hint).map Occurrence.name = targetNames place := by
  cases place with
  | name id => rfl
  | tuple items => rw [targetOccurrences, map_name_targetsOccurrences nested items, targetNames]
  | _ => simp [targetOccurrences, targetNames]

theorem map_name_targetsOccurrences (nested : Bool) : (places : List Expr) →
    (targetsOccurrences nested places).map Occurrence.name = targetsNames places
  | [] => rfl
  | first :: rest => by
    rw [targetsOccurrences, List.map_append, map_name_targetOccurrences nested first,
      map_name_targetsOccurrences nested rest, targetsNames]

end

mutual

theorem nested_of_mem_targetOccurrences {nested : Bool} {occurrence : Occurrence}
    (place hint : Expr) (member : occurrence ∈ targetOccurrences nested place hint) :
    occurrence.nested = nested := by
  cases place with
  | name id =>
    rw [targetOccurrences, List.mem_singleton] at member
    rw [member]
  | tuple items =>
    rw [targetOccurrences] at member
    exact nested_of_mem_targetsOccurrences items member
  | _ => simp [targetOccurrences] at member

theorem nested_of_mem_targetsOccurrences {nested : Bool} {occurrence : Occurrence} :
    (places : List Expr) → occurrence ∈ targetsOccurrences nested places →
    occurrence.nested = nested
  | [], member => by cases member
  | first :: rest, member => by
    rw [targetsOccurrences, List.mem_append] at member
    rcases member with inFirst | inRest
    · exact nested_of_mem_targetOccurrences first .absent inFirst
    · exact nested_of_mem_targetsOccurrences rest inRest

end

mutual

/-- The names that occur in a statement are those that the statements inside it assign to. -/
theorem map_name_stmtOccurrences (nested : Bool) (value : Stmt) :
    (stmtOccurrences nested value).map Occurrence.name = (within value).flatMap assignedBy := by
  cases value with
  | assign targets _ =>
    rw [stmtOccurrences, map_name_targetsOccurrences]
    simp [within, assignedBy]
  | annAssign target hint _ =>
    rw [stmtOccurrences, map_name_targetOccurrences]
    simp [within, assignedBy]
  | ifElse test body orelse =>
    rw [stmtOccurrences, List.map_append, map_name_blockOccurrences true body,
      map_name_blockOccurrences true orelse]
    simp [within, assignedBy]
  | whileLoop test body orelse =>
    rw [stmtOccurrences, List.map_append, map_name_blockOccurrences true body,
      map_name_blockOccurrences true orelse]
    simp [within, assignedBy]
  | forLoop place iter body orelse =>
    rw [stmtOccurrences, List.map_append, map_name_blockOccurrences true body,
      map_name_blockOccurrences true orelse]
    simp [within, assignedBy]
  | _ => simp [stmtOccurrences, within, assignedBy]

/-- The names that occur in a block are those that its statements assign to. -/
theorem map_name_blockOccurrences (nested : Bool) : (body : List Stmt) →
    (blockOccurrences nested body).map Occurrence.name = (withinAll body).flatMap assignedBy
  | [] => rfl
  | first :: rest => by
    rw [blockOccurrences, List.map_append, map_name_stmtOccurrences nested first,
      map_name_blockOccurrences nested rest, withinAll, List.flatMap_append]

end

mutual

/-- Everything in a nested block is nested. -/
theorem nested_of_mem_stmtOccurrences {occurrence : Occurrence} (value : Stmt)
    (member : occurrence ∈ stmtOccurrences true value) : occurrence.nested := by
  cases value with
  | assign targets _ =>
    rw [stmtOccurrences] at member
    exact nested_of_mem_targetsOccurrences targets member
  | annAssign target hint _ =>
    rw [stmtOccurrences] at member
    exact nested_of_mem_targetOccurrences target hint member
  | ifElse _ body orelse =>
    rw [stmtOccurrences, List.mem_append] at member
    exact member.elim (nested_of_mem_blockOccurrences body) (nested_of_mem_blockOccurrences orelse)
  | whileLoop _ body orelse =>
    rw [stmtOccurrences, List.mem_append] at member
    exact member.elim (nested_of_mem_blockOccurrences body) (nested_of_mem_blockOccurrences orelse)
  | forLoop _ _ body orelse =>
    rw [stmtOccurrences, List.mem_append] at member
    exact member.elim (nested_of_mem_blockOccurrences body) (nested_of_mem_blockOccurrences orelse)
  | _ => simp [stmtOccurrences] at member

/-- Every occurrence inside a nested block is a nested one. -/
theorem nested_of_mem_blockOccurrences {occurrence : Occurrence} : (body : List Stmt) →
    occurrence ∈ blockOccurrences true body → occurrence.nested
  | [], member => by cases member
  | first :: rest, member => by
    rw [blockOccurrences, List.mem_append] at member
    exact member.elim (nested_of_mem_stmtOccurrences first) (nested_of_mem_blockOccurrences rest)

end

/-- A name that occurs in a statement but not inside its blocks is one that it assigns to. -/
theorem nested_or_mem_assignedBy {occurrence : Occurrence} {value : Stmt}
    (member : occurrence ∈ stmtOccurrences false value) :
    occurrence.nested ∨ occurrence.name ∈ assignedBy value := by
  cases value with
  | assign targets _ =>
    rw [stmtOccurrences] at member
    rw [assignedBy, ← map_name_targetsOccurrences false]
    exact .inr (List.mem_map_of_mem member)
  | annAssign target hint _ =>
    rw [stmtOccurrences] at member
    rw [assignedBy, ← map_name_targetOccurrences false target hint]
    exact .inr (List.mem_map_of_mem member)
  | ifElse _ body orelse =>
    rw [stmtOccurrences, List.mem_append] at member
    exact .inl (member.elim (nested_of_mem_blockOccurrences body)
      (nested_of_mem_blockOccurrences orelse))
  | whileLoop _ body orelse =>
    rw [stmtOccurrences, List.mem_append] at member
    exact .inl (member.elim (nested_of_mem_blockOccurrences body)
      (nested_of_mem_blockOccurrences orelse))
  | forLoop _ _ body orelse =>
    rw [stmtOccurrences, List.mem_append] at member
    exact .inl (member.elim (nested_of_mem_blockOccurrences body)
      (nested_of_mem_blockOccurrences orelse))
  | _ => simp [stmtOccurrences] at member

/-- What occurs in a statement that assigns is not nested. -/
theorem not_nested_of_mem_stmtOccurrences {occurrence : Occurrence} {value : Stmt}
    (member : occurrence ∈ stmtOccurrences false value) (assigns : assignedBy value ≠ []) :
    ¬ occurrence.nested := by
  cases value with
  | assign targets _ =>
    rw [stmtOccurrences] at member
    simp [nested_of_mem_targetsOccurrences targets member]
  | annAssign target hint _ =>
    rw [stmtOccurrences] at member
    simp [nested_of_mem_targetOccurrences target hint member]
  | _ => exact absurd rfl assigns

/-! ### The walk as a fold -/

variable {table : Table}

/-- Meets one occurrence. -/
def meet (table : Table) (hoisting : Hoisting) (occurrence : Occurrence) : Hoisting :=
  hoistName table occurrence.nested hoisting occurrence.name occurrence.hint

mutual

theorem hoistTarget_eq_foldl (nested : Bool) (place hint : Expr) (hoisting : Hoisting) :
    hoistTarget table nested place hint hoisting =
      (targetOccurrences nested place hint).foldl (meet table) hoisting := by
  cases place with
  | name id => rfl
  | tuple items => rw [hoistTarget, hoistTargets_eq_foldl nested items, targetOccurrences]
  | _ => simp [hoistTarget, targetOccurrences]

theorem hoistTargets_eq_foldl (nested : Bool) : (places : List Expr) → (hoisting : Hoisting) →
    hoistTargets table nested places hoisting =
      (targetsOccurrences nested places).foldl (meet table) hoisting
  | [], _ => rfl
  | first :: rest, hoisting => by
    rw [hoistTargets, hoistTargets_eq_foldl nested rest, hoistTarget_eq_foldl nested first,
      targetsOccurrences, List.foldl_append]

end

mutual

theorem hoistStmt_eq_foldl (nested : Bool) (value : Stmt) (hoisting : Hoisting) :
    hoistStmt table nested value hoisting =
      (stmtOccurrences nested value).foldl (meet table) hoisting := by
  cases value with
  | assign targets _ => rw [hoistStmt, hoistTargets_eq_foldl, stmtOccurrences]
  | annAssign target hint _ => rw [hoistStmt, hoistTarget_eq_foldl, stmtOccurrences]
  | ifElse _ body orelse =>
    rw [hoistStmt, hoistBlock_eq_foldl true orelse, hoistBlock_eq_foldl true body, stmtOccurrences,
      List.foldl_append]
  | whileLoop _ body orelse =>
    rw [hoistStmt, hoistBlock_eq_foldl true orelse, hoistBlock_eq_foldl true body, stmtOccurrences,
      List.foldl_append]
  | forLoop _ _ body orelse =>
    rw [hoistStmt, hoistBlock_eq_foldl true orelse, hoistBlock_eq_foldl true body, stmtOccurrences,
      List.foldl_append]
  | _ => simp [hoistStmt, stmtOccurrences]

/-- Hoisting meets the occurrences of a block one by one. -/
theorem hoistBlock_eq_foldl (nested : Bool) : (body : List Stmt) → (hoisting : Hoisting) →
    hoistBlock table nested body hoisting =
      (blockOccurrences nested body).foldl (meet table) hoisting
  | [], _ => rfl
  | first :: rest, hoisting => by
    rw [hoistBlock, hoistBlock_eq_foldl nested rest, hoistStmt_eq_foldl nested first,
      blockOccurrences, List.foldl_append]

end

/-- An occurrence of a name that is seen or bound changes nothing. -/
theorem meet_of_known {hoisting : Hoisting} {occurrence : Occurrence}
    (known : occurrence.name ∈ hoisting.seen ∨ isBound table occurrence.name) :
    meet table hoisting occurrence = hoisting := by
  rw [meet, hoistName, if_pos]
  simpa using known

/-- The first occurrence of a name is seen, and declared if it is nested. -/
theorem meet_of_new {hoisting : Hoisting} {occurrence : Occurrence}
    (unseen : occurrence.name ∉ hoisting.seen) (free : ¬ isBound table occurrence.name) :
    meet table hoisting occurrence =
      { seen := occurrence.name :: hoisting.seen
        declarations :=
          if occurrence.nested then
            hoisting.declarations ++ [{ name := occurrence.name, hint := occurrence.hint }]
          else hoisting.declarations } := by
  rw [meet, hoistName, if_neg]
  simp [unseen, free]

/-! ### What is declared in front -/

/-- Where a name occurs first. -/
def firstOccurrence? (name : String) (occurrences : List Occurrence) : Option Occurrence :=
  occurrences.find? fun occurrence => occurrence.name = name

theorem firstOccurrence?_cons {name : String} {first : Occurrence} {rest : List Occurrence} :
    firstOccurrence? name (first :: rest) =
      if first.name = name then some first else firstOccurrence? name rest := by
  rw [firstOccurrence?, List.find?_cons]
  split <;> simp_all [firstOccurrence?]

/-- A first occurrence in the first part comes before any other. -/
theorem firstOccurrence?_append {name : String} {first second : List Occurrence} :
    firstOccurrence? name (first ++ second) =
      (firstOccurrence? name first).or (firstOccurrence? name second) :=
  List.find?_append

theorem exists_firstOccurrence {name : String} {occurrences : List Occurrence}
    (occurs : name ∈ occurrences.map Occurrence.name) :
    ∃ first, firstOccurrence? name occurrences = some first := by
  obtain ⟨occurrence, member, rfl⟩ := List.mem_map.mp occurs
  rw [← Option.isSome_iff_exists, firstOccurrence?, List.find?_isSome]
  exact ⟨occurrence, member, by simp⟩

theorem mem_of_firstOccurrence? {name : String} {occurrences : List Occurrence}
    {first : Occurrence} (found : firstOccurrence? name occurrences = some first) :
    first ∈ occurrences ∧ first.name = name :=
  ⟨List.mem_of_find?_eq_some found, by simpa using List.find?_some found⟩

/-- A name is declared exactly if it is not bound and its first occurrence is nested. -/
theorem mem_declarations_foldl_meet {x : String} {occurrences : List Occurrence}
    {hoisting : Hoisting} :
    x ∈ (occurrences.foldl (meet table) hoisting).declarations.map Declaration.name ↔
      x ∈ hoisting.declarations.map Declaration.name ∨
        x ∉ hoisting.seen ∧ ¬ isBound table x ∧
          ∃ first, firstOccurrence? x occurrences = some first ∧ first.nested := by
  induction occurrences generalizing hoisting with
  | nil => simp [firstOccurrence?]
  | cons first rest inductionHypothesis =>
    rw [List.foldl_cons, inductionHypothesis]
    rw [firstOccurrence?_cons]
    by_cases known : first.name ∈ hoisting.seen ∨ isBound table first.name
    · rw [meet_of_known known]
      by_cases same : first.name = x
      · subst same
        rcases known with seen | bound <;> simp [*]
      · simp [same]
    · rw [not_or] at known
      rw [meet_of_new known.1 known.2]
      by_cases same : first.name = x
      · subst same
        cases nested : first.nested <;> simp [known, nested]
      · cases nested : first.nested <;> simp [same, Ne.symm same]

/-- A name is declared in front exactly if it is not bound before and first occurs in a block. -/
theorem mem_declarations_iff {x : String} {body : List Stmt} :
    x ∈ (declarations table body).map Declaration.name ↔
      ¬ isBound table x ∧
        ∃ first, firstOccurrence? x (blockOccurrences false body) = some first ∧ first.nested := by
  rw [declarations, hoistBlock_eq_foldl, mem_declarations_foldl_meet]
  simp

/-- No name is declared twice. -/
theorem nodup_declarations_foldl_meet {occurrences : List Occurrence} {hoisting : Hoisting}
    (declared : hoisting.declarations.map Declaration.name ⊆ hoisting.seen)
    (nodup : (hoisting.declarations.map Declaration.name).Nodup) :
    ((occurrences.foldl (meet table) hoisting).declarations.map Declaration.name).Nodup := by
  induction occurrences generalizing hoisting with
  | nil => exact nodup
  | cons first rest inductionHypothesis =>
    rw [List.foldl_cons]
    by_cases known : first.name ∈ hoisting.seen ∨ isBound table first.name
    · rw [meet_of_known known]
      exact inductionHypothesis declared nodup
    · rw [not_or] at known
      rw [meet_of_new known.1 known.2]
      have undeclared : first.name ∉ hoisting.declarations.map Declaration.name :=
        fun member => known.1 (declared member)
      refine inductionHypothesis ?_ ?_
      · cases first.nested with
        | false => exact List.subset_cons_of_subset _ declared
        | true =>
          rw [if_pos rfl, List.map_append]
          refine List.append_subset.mpr ⟨List.subset_cons_of_subset _ declared, ?_⟩
          exact List.cons_subset.mpr ⟨List.mem_cons_self, List.nil_subset _⟩
      · cases first.nested with
        | false => exact nodup
        | true =>
          rw [if_pos rfl, List.map_append]
          exact nodup.append (List.nodup_singleton _) (List.disjoint_singleton.mpr undeclared)

/-- No name is declared in front twice. -/
theorem nodup_declarations (body : List Stmt) :
    ((declarations table body).map Declaration.name).Nodup := by
  rw [declarations, hoistBlock_eq_foldl]
  exact nodup_declarations_foldl_meet (List.nil_subset _) List.nodup_nil

end Oxide.Lower
