/-
This file says exactly what is declared in front of the body of a function. A declaration belongs to
a name that is no variable or parameter yet and that the text of the body binds inside a block
first; it takes its type from the hint of this first occurrence, if that hint means one. The
declarations follow each other as the first occurrences do, and behind them the table has gained
these variables in its innermost scope and is the same otherwise.
-/

import Oxide.Proofs.Hoisting

namespace Oxide

/-! ### The innermost scope -/

namespace Table

theorem lookupLocal_insert_self (table : Table) (name : String) (symbol : Symbol) :
    (table.insert name symbol).lookupLocal name = some symbol :=
  Bindings.find?_insert_self name symbol table.parts.1.bindings

theorem lookupLocal_insert_of_ne (table : Table) {name other : String} (different : other ≠ name)
    (symbol : Symbol) : (table.insert name symbol).lookupLocal other = table.lookupLocal other :=
  Bindings.find?_insert_of_ne different symbol table.parts.1.bindings

end Table

namespace Lower

variable {table : Table}

/-! ### The order of the text -/

/-- How many occurrences stand before the first one of a name. -/
def firstPlace (name : String) (occurrences : List Occurrence) : Nat :=
  occurrences.findIdx fun occurrence => occurrence.name = name

theorem firstPlace_append {name : String} {first second : List Occurrence} :
    firstPlace name (first ++ second) =
      if firstPlace name first < first.length then firstPlace name first
      else firstPlace name second + first.length :=
  List.findIdx_append

theorem firstPlace_lt_length {name : String} {occurrences : List Occurrence}
    (occurs : name ∈ occurrences.map Occurrence.name) :
    firstPlace name occurrences < occurrences.length := by
  obtain ⟨occurrence, member, rfl⟩ := List.mem_map.mp occurs
  exact List.findIdx_lt_length_of_exists ⟨occurrence, member, by simp⟩

theorem firstPlace_append_of_mem {name : String} {occurrences : List Occurrence}
    (occurs : name ∈ occurrences.map Occurrence.name) (later : List Occurrence) :
    firstPlace name (occurrences ++ later) = firstPlace name occurrences := by
  rw [firstPlace_append, if_pos (firstPlace_lt_length occurs)]

theorem firstPlace_concat_of_not_mem {occurrence : Occurrence} {occurrences : List Occurrence}
    (new : occurrence.name ∉ occurrences.map Occurrence.name) :
    firstPlace occurrence.name (occurrences ++ [occurrence]) = occurrences.length := by
  have nowhere : firstPlace occurrence.name occurrences = occurrences.length := by
    refine List.findIdx_eq_length_of_false fun other member => ?_
    simpa using fun same => new (List.mem_map.mpr ⟨other, member, same⟩)
  rw [firstPlace_append, nowhere, if_neg (Nat.lt_irrefl _)]
  simp [firstPlace]

theorem mem_map_name_of_firstOccurrence? {name : String} {occurrences : List Occurrence}
    {first : Occurrence} (found : firstOccurrence? name occurrences = some first) :
    name ∈ occurrences.map Occurrence.name := by
  obtain ⟨member, rfl⟩ := mem_of_firstOccurrence? found
  exact List.mem_map_of_mem member

/-- An occurrence of another name, or not the first one of this name, is not the first one. -/
theorem firstOccurrence?_concat {name : String} {occurrences : List Occurrence}
    {occurrence : Occurrence}
    (notFirst : name ∈ occurrences.map Occurrence.name ∨ occurrence.name ≠ name) :
    firstOccurrence? name (occurrences ++ [occurrence]) = firstOccurrence? name occurrences := by
  rw [firstOccurrence?_append]
  rcases notFirst with occurs | different
  · obtain ⟨first, found⟩ := exists_firstOccurrence occurs
    rw [found, Option.some_or]
  · rw [firstOccurrence?_cons, if_neg different]
    exact Option.or_none

theorem firstOccurrence?_concat_self {occurrences : List Occurrence} {occurrence : Occurrence}
    (new : occurrence.name ∉ occurrences.map Occurrence.name) :
    firstOccurrence? occurrence.name (occurrences ++ [occurrence]) = some occurrence := by
  have nowhere : firstOccurrence? occurrence.name occurrences = none := by
    rw [Option.eq_none_iff_forall_ne_some]
    exact fun first found => new (mem_map_name_of_firstOccurrence? found)
  rw [firstOccurrence?_append, nowhere, Option.none_or, firstOccurrence?_cons, if_pos rfl]

/-! ### The walk -/

/-- What the walk has kept behind some occurrences. -/
structure Walked (table : Table) (occurrences : List Occurrence) (hoisting : Hoisting) :
    Prop where
  seen (name : String) :
    name ∈ hoisting.seen ↔ ¬ isBound table name ∧ name ∈ occurrences.map Occurrence.name
  declared (name : String) (hint : Expr) :
    ⟨name, hint⟩ ∈ hoisting.declarations ↔
      ¬ isBound table name ∧ firstOccurrence? name occurrences = some ⟨name, hint, true⟩
  ordered : hoisting.declarations.Pairwise fun first second =>
    firstPlace first.name occurrences < firstPlace second.name occurrences

namespace Walked

variable {occurrences : List Occurrence} {hoisting : Hoisting}

theorem start : Walked table [] {} :=
  ⟨by simp, by simp [firstOccurrence?], .nil⟩

theorem mem_map_name (walked : Walked table occurrences hoisting) {declaration : Declaration}
    (member : declaration ∈ hoisting.declarations) :
    declaration.name ∈ occurrences.map Occurrence.name :=
  mem_map_name_of_firstOccurrence? ((walked.declared _ _).mp member).2

/-- Occurrences behind those of the declarations do not change the order. -/
theorem ordered_append (walked : Walked table occurrences hoisting) (later : List Occurrence) :
    hoisting.declarations.Pairwise fun first second =>
      firstPlace first.name (occurrences ++ later) <
        firstPlace second.name (occurrences ++ later) := by
  refine walked.ordered.imp_of_mem fun {first second} firstMember secondMember before => ?_
  rw [firstPlace_append_of_mem (walked.mem_map_name firstMember),
    firstPlace_append_of_mem (walked.mem_map_name secondMember)]
  exact before

/-- One more occurrence of a name that is known changes nothing. -/
theorem concat_of_known (walked : Walked table occurrences hoisting) {occurrence : Occurrence}
    (known : isBound table occurrence.name ∨
      occurrence.name ∈ occurrences.map Occurrence.name) :
    Walked table (occurrences ++ [occurrence]) hoisting := by
  have notFirst {name : String} (free : ¬ isBound table name) :
      name ∈ occurrences.map Occurrence.name ∨ occurrence.name ≠ name := by
    by_cases same : occurrence.name = name
    · subst same
      exact .inl (known.resolve_left free)
    · exact .inr same
  refine ⟨fun name => ?_, fun name hint => ?_, walked.ordered_append [occurrence]⟩
  · rw [walked.seen, List.map_append, List.mem_append, List.map_singleton, List.mem_singleton]
    refine and_congr_right fun free => ⟨.inl, fun occurs => occurs.elim id ?_⟩
    exact fun same => (notFirst free).resolve_right (· same.symm)
  · rw [walked.declared]
    exact and_congr_right fun free => by rw [firstOccurrence?_concat (notFirst free)]

/-- The first occurrence of a name that is new is declared if it lies in a block. -/
theorem concat_of_new (walked : Walked table occurrences hoisting) {occurrence : Occurrence}
    (free : ¬ isBound table occurrence.name)
    (new : occurrence.name ∉ occurrences.map Occurrence.name) :
    Walked table (occurrences ++ [occurrence])
      { seen := occurrence.name :: hoisting.seen
        declarations :=
          if occurrence.nested then
            hoisting.declarations ++ [{ name := occurrence.name, hint := occurrence.hint }]
          else hoisting.declarations } := by
  refine ⟨fun name => ?_, fun name hint => ?_, ?_⟩
  · rw [List.mem_cons, walked.seen, List.map_append, List.mem_append, List.map_singleton,
      List.mem_singleton]
    by_cases same : name = occurrence.name
    · simp [same, free]
    · simp [same]
  · by_cases same : occurrence.name = name
    · subst same
      have undeclared : ⟨occurrence.name, hint⟩ ∉ hoisting.declarations :=
        fun member => new (walked.mem_map_name member)
      rw [firstOccurrence?_concat_self new]
      obtain ⟨name, otherHint, nested⟩ := occurrence
      cases nested <;> simp [undeclared, free, eq_comm]
    · rw [firstOccurrence?_concat (.inr same), ← walked.declared]
      split
      · simp [Ne.symm same]
      · rfl
  · split
    · refine List.pairwise_append.mpr ⟨walked.ordered_append [occurrence],
        List.pairwise_singleton _ _, fun first member last isLast => ?_⟩
      obtain rfl := List.mem_singleton.mp isLast
      have occurs := walked.mem_map_name member
      rw [firstPlace_append_of_mem occurs, firstPlace_concat_of_not_mem new]
      exact firstPlace_lt_length occurs
    · exact walked.ordered_append [occurrence]

/-- Meeting an occurrence keeps what the walk has to keep. -/
theorem meet (walked : Walked table occurrences hoisting) (occurrence : Occurrence) :
    Walked table (occurrences ++ [occurrence]) (Lower.meet table hoisting occurrence) := by
  by_cases bound : isBound table occurrence.name
  · rw [meet_of_known (.inr bound)]
    exact walked.concat_of_known (.inl bound)
  · have seen := walked.seen occurrence.name
    by_cases occurs : occurrence.name ∈ occurrences.map Occurrence.name
    · rw [meet_of_known (.inl (seen.mpr ⟨bound, occurs⟩))]
      exact walked.concat_of_known (.inr occurs)
    · rw [meet_of_new (fun member => occurs (seen.mp member).2) bound]
      exact walked.concat_of_new bound occurs

/-- The whole walk. -/
theorem foldl (walked : Walked table occurrences hoisting) (later : List Occurrence) :
    Walked table (occurrences ++ later) (later.foldl (Lower.meet table) hoisting) := by
  induction later generalizing occurrences hoisting with
  | nil =>
    rw [List.append_nil]
    exact walked
  | cons first rest inductionHypothesis =>
    rw [List.foldl_cons, List.append_cons]
    exact inductionHypothesis (walked.meet first)

end Walked

/-- What is declared in front of a body is what the walk through it has kept. -/
theorem walked_declarations (table : Table) (body : List Stmt) :
    ∃ seen, Walked table (blockOccurrences false body) ⟨seen, declarations table body⟩ := by
  have started : Walked table [] {} := .start
  have walked := started.foldl (blockOccurrences false body)
  rw [← hoistBlock_eq_foldl] at walked
  exact ⟨_, walked⟩

/-! ### The table behind the declarations -/

/-- The second table differs from the first one exactly by the declared variables, which stand in
its innermost scope. -/
structure DiffersBy (front : List Declaration) (table after : Table) : Prop where
  declared {declaration : Declaration} : declaration ∈ front →
    after.lookupLocal declaration.name = some (.variable declaration.name declaration.hint)
  others {name : String} : name ∉ front.map Declaration.name →
    after.lookupLocal name = table.lookupLocal name
  scope : after.scope = table.scope
  outer : after.parts.2 = table.parts.2
  unchanged : front = [] → after = table

theorem differsBy_foldl_declare {front : List Declaration}
    (distinct : (front.map Declaration.name).Nodup) :
    DiffersBy front table (front.foldl Declaration.declare table) := by
  induction front generalizing table with
  | nil => exact ⟨(absurd · List.not_mem_nil), fun _ => rfl, rfl, rfl, fun _ => rfl⟩
  | cons first rest inductionHypothesis =>
    obtain ⟨fresh, restDistinct⟩ := List.nodup_cons.mp distinct
    have later := @inductionHypothesis (first.declare table) restDistinct
    refine ⟨fun member => ?_, fun absent => ?_, later.scope, later.outer, fun none => ?_⟩
    · rcases List.mem_cons.mp member with rfl | inRest
      · rw [List.foldl_cons, later.others fresh]
        exact table.lookupLocal_insert_self _ _
      · exact later.declared inRest
    · rw [List.map_cons, List.mem_cons, not_or] at absent
      rw [List.foldl_cons, later.others absent.2]
      exact table.lookupLocal_insert_of_ne absent.1 _
    · cases none

/-! ### What is declared, in which order, and how -/

namespace Declaration

/-- The type of a declaration, if its hint means one. -/
def type? (options : Options) (declaration : Declaration) : Option Ty :=
  if declaration.hint.isAbsent then none else Ty.ofHint? options.object declaration.hint

theorem tokens_eq (options : Options) (declaration : Declaration) :
    declaration.tokens options =
      (newVariable declaration.name (declaration.type? options)).punct ";" := by
  unfold tokens type? newVariable
  split
  · rfl
  · cases Ty.ofHint? options.object declaration.hint <;> rfl

end Declaration

/-- A name is declared in front of a body exactly if it is no variable or parameter before and its
first occurrence in the text lies in a block, and its hint is the one it has there. Nothing is
declared twice, since the declarations are in the order of these first occurrences. Each of them
is spelled with a type exactly if its hint means one, and the table behind them differs by these
variables only. -/
theorem declared_in_front_exactly (options : Options) (table : Table) (body : List Stmt) :
    let text := blockOccurrences false body
    let front := declarations table body
    (∀ name hint, ⟨name, hint⟩ ∈ front ↔
      ¬ isBound table name ∧ firstOccurrence? name text = some ⟨name, hint, true⟩) ∧
    (front.Pairwise fun first second =>
      firstPlace first.name text < firstPlace second.name text) ∧
    (front.flatMap (Declaration.tokens options) = front.flatMap fun declaration =>
      (newVariable declaration.name (declaration.type? options)).punct ";") ∧
    DiffersBy front table (front.foldl Declaration.declare table) := by
  intro text front
  obtain ⟨seen, walked⟩ := walked_declarations table body
  refine ⟨walked.declared, walked.ordered, ?_, differsBy_foldl_declare (nodup_declarations body)⟩
  exact congrArg front.flatMap (funext (Declaration.tokens_eq options))

/-- What is bound outside of all blocks first is not declared in front, even if a block binds it
too. -/
example :
    let inner : Stmt := .assign [.tuple [.name "z", .name "x"]] (.name "pair")
    let other : Stmt := .annAssign (.name "y") (.name "int") .absent
    let body : List Stmt := [.assign [.name "x"] (.constant (.int "1")),
      .ifElse (.name "x") [inner, other] [inner], .assign [.name "y"] (.name "x")]
    (declarations Table.new body).map Declaration.name = ["z", "y"] := by
  decide +kernel

end Lower

end Oxide
