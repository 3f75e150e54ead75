/-
This file proves that the variables of a function are declared where the written language wants
them. The names that blocks bind first are declared in front of the body, and every other name is
declared by the first statement of the body that assigns to it; so each declaration stands directly
in the body, no name is declared twice, and no parameter is declared again. What is assigned to
without a declaration is known there already: from the table, from a loop around it, or from a
declaration before it.
-/

import Oxide.Proofs.Traces

namespace Oxide

/-! ### Events and their places -/

namespace Lower

/-- The names of each declaration among some events. -/
def declaredIn (events : List Event) : List (List String) :=
  events.filterMap fun
    | .declares _ names => some names
    | .assigns _ _ => none

theorem mem_declaredIn {events : List Event} {names : List String} :
    names ∈ declaredIn events ↔ ∃ around, .declares around names ∈ events := by
  unfold declaredIn
  rw [List.mem_filterMap]
  constructor
  · rintro ⟨event, member, found⟩
    cases event with
    | declares around others =>
      cases found
      exact ⟨around, member⟩
    | assigns => cases found
  · rintro ⟨around, member⟩
    exact ⟨_, member, rfl⟩

theorem declaredIn_append (first second : List Event) :
    declaredIn (first ++ second) = declaredIn first ++ declaredIn second :=
  List.filterMap_append

variable {piece : Piece} {table : Table} {around : List Stream} {events : List Event}

/-- What a piece does happens in the blocks around it, and in blocks of its own. -/
theorem around_of_traces (traced : Traces piece table around events) :
    ∀ event ∈ events, ∃ opened, event.around = opened ++ around := by
  have inside {head : Stream} {around : List Stream} {event : Event}
      (found : ∃ opened, event.around = opened ++ head :: around) :
      ∃ opened, event.around = opened ++ around := by
    obtain ⟨opened, equal⟩ := found
    exact ⟨opened ++ [head], by rw [equal, List.append_assoc, List.singleton_append]⟩
  induction traced with
  | settled _ plain =>
    intro event member
    obtain ⟨texts, rfl, _⟩ := plain event member
    exact ⟨[], rfl⟩
  | fresh _ _ _ plain =>
    rw [List.forall_mem_cons]
    refine ⟨⟨[], rfl⟩, fun event member => ⟨[], ?_⟩⟩
    rw [plain event member]
    rfl
  | silent _ => exact fun _ member => nomatch member
  | ifElse _ _ bodyAround otherAround =>
    exact List.forall_mem_append.mpr ⟨fun event member => inside (bodyAround event member),
      fun event member => inside (otherAround event member)⟩
  | ifFurther _ _ bodyAround furtherAround =>
    exact List.forall_mem_append.mpr ⟨fun event member => inside (bodyAround event member),
      furtherAround⟩
  | whileLoop _ bodyAround => exact fun event member => inside (bodyAround event member)
  | forLoop _ _ bodyAround => exact fun event member => inside (bodyAround event member)
  | functionDef _ all => exact all
  | asyncFunctionDef _ all => exact all
  | blockNil => exact fun _ member => nomatch member
  | blockCons _ _ firstAround restAround =>
    exact List.forall_mem_append.mpr ⟨firstAround, restAround⟩
  | function _ _ bodyAround =>
    refine List.forall_mem_append.mpr ⟨?_, fun event member => inside (bodyAround event member)⟩
    rw [List.forall_mem_map]
    exact fun _ _ => ⟨[_], rfl⟩

/-! ### Only new names are declared -/

/-- The statements of a piece; those of the functions in it do not count. -/
def Piece.statements : Piece → List Stmt
  | .stmt value => within value
  | .block body => withinAll body
  | .function definition => [.functionDef definition]

/-- Whether something stands in a function that is opened inside the given blocks. -/
def InFunction (around inner : List Stream) : Prop :=
  ∃ opened, inner = opened ++ around ∧ ∃ head ∈ opened, .keyword "fn" ∈ head

/-- Whether a declaration among some statements is one of a function that they define, or of names
that they assign to and that are not bound before, except for those that a function has taken. -/
inductive DeclaresNew (statements : List Stmt) (table : Table) (around inner : List Stream) :
    List String → Prop where
  | inside {texts : List String} (inFunction : InFunction around inner)
      (defines : ∃ value ∈ statements, isDefinition value) :
      DeclaresNew statements table around inner texts
  | own (names : List String) (nonempty : names ≠ [])
      (assigned : names ⊆ statements.flatMap assignedBy)
      (new : ∀ x ∈ names, isBound table x → x ∈ statements.flatMap definedBy) :
      DeclaresNew statements table around inner (names.map identName)

namespace DeclaresNew

variable {statements more : List Stmt} {within : Table} {inner : List Stream} {texts : List String}

theorem outside {head : Stream} (new : DeclaresNew statements table (head :: around) inner texts) :
    DeclaresNew statements table around inner texts := by
  cases new with
  | inside inFunction defines =>
    obtain ⟨opened, equal, other, member, named⟩ := inFunction
    refine .inside ⟨opened ++ [head], ?_, other, List.mem_append_left _ member, named⟩ defines
    rw [equal, List.append_assoc, List.singleton_append]
  | own names nonempty assigned new => exact .own names nonempty assigned new

theorem mono (new : DeclaresNew statements within around inner texts) (subset : statements ⊆ more)
    (kept : ∀ x, isBound table x → isBound within x ∨ x ∈ more.flatMap definedBy) :
    DeclaresNew more table around inner texts := by
  have flat (names : Stmt → List String) : statements.flatMap names ⊆ more.flatMap names := by
    intro x member
    obtain ⟨value, valueMember, named⟩ := List.mem_flatMap.mp member
    exact List.mem_flatMap.mpr ⟨value, subset valueMember, named⟩
  cases new with
  | inside inFunction defines =>
    obtain ⟨value, member, defines⟩ := defines
    exact .inside inFunction ⟨value, subset member, defines⟩
  | own names nonempty assigned new =>
    refine .own names nonempty (List.Subset.trans assigned (flat assignedBy)) ?_
    intro x member bound
    exact (kept x bound).elim (fun bound => flat definedBy (new x member bound)) id

end DeclaresNew

/-- What a function does happens in it. -/
theorem inFunction_of_traces {definition : FunctionDef}
    (traced : Traces (.function definition) table around events) {event : Event}
    (member : event ∈ events) : InFunction around event.around := by
  cases traced with
  | @function _ _ _ head _ named bodyTraced =>
    have opened : ∃ opened, event.around = opened ++ head :: around := by
      rcases List.mem_append.mp member with inFront | inBody
      · obtain ⟨declaration, _, rfl⟩ := List.mem_map.mp inFront
        exact ⟨[], rfl⟩
      · exact around_of_traces bodyTraced event inBody
    obtain ⟨opened, equal⟩ := opened
    have isOpened : head ∈ opened ++ [head] :=
      List.mem_append_right _ (List.mem_singleton_self head)
    refine ⟨opened ++ [head], ?_, head, isOpened, named⟩
    rw [equal, List.append_assoc, List.singleton_append]

/-- A piece declares only names that are new to it, unless one of its functions does. -/
theorem declaresNew_of_traces (traced : Traces piece table around events) {inner : List Stream}
    {texts : List String} (member : .declares inner texts ∈ events) :
    DeclaresNew piece.statements table around inner texts := by
  induction traced with
  | settled _ plain =>
    obtain ⟨_, impossible, _⟩ := plain _ member
    cases impossible
  | @fresh value _ _ _ _ nonempty new plain =>
    rcases List.mem_cons.mp member with same | inLater
    · cases same
      refine .own (assignedBy value) nonempty ?_ fun x xMember bound => absurd bound (new x xMember)
      exact fun x xMember => List.mem_flatMap.mpr ⟨value, mem_within_self value, xMember⟩
    · cases plain _ inLater
  | silent _ => cases member
  | ifElse _ _ bodyNew otherNew =>
    rw [Piece.statements, within]
    rcases List.mem_append.mp member with inBody | inOther
    · refine (bodyNew inBody).outside.mono ?_ fun x bound => .inl (by simpa using bound)
      exact List.subset_cons_of_subset _ (List.subset_append_left _ _)
    · refine (otherNew inOther).outside.mono ?_ fun x bound => .inl (by simpa using bound)
      exact List.subset_cons_of_subset _ (List.subset_append_right _ _)
  | ifFurther _ _ bodyNew furtherNew =>
    rw [Piece.statements, within]
    rcases List.mem_append.mp member with inBody | inFurther
    · refine (bodyNew inBody).outside.mono ?_ fun x bound => .inl (by simpa using bound)
      exact List.subset_cons_of_subset _ (List.subset_append_left _ _)
    · refine (furtherNew inFurther).mono ?_ fun x bound => .inl bound
      rw [withinAll, withinAll, List.append_nil]
      exact List.subset_cons_of_subset _ (List.subset_append_right _ _)
  | whileLoop _ bodyNew =>
    rw [Piece.statements, within]
    refine (bodyNew member).outside.mono ?_ fun x bound => .inl (by simpa using bound)
    exact List.subset_cons_of_subset _ (List.subset_append_left _ _)
  | forLoop _ _ bodyNew =>
    rw [Piece.statements, within]
    refine (bodyNew member).outside.mono ?_ fun x bound => .inl ?_
    · exact List.subset_cons_of_subset _ (List.subset_append_left _ _)
    · exact (isBound_bindTarget _ _ _).mpr (.inr (by simpa using bound))
  | functionDef traced _ =>
    exact .inside (inFunction_of_traces traced member) ⟨_, mem_within_self _, rfl⟩
  | asyncFunctionDef traced _ =>
    exact .inside (inFunction_of_traces traced member) ⟨_, mem_within_self _, rfl⟩
  | blockNil => cases member
  | @blockCons first _ _ _ _ _ _ _ firstNew restNew =>
    rw [Piece.statements, withinAll]
    rcases List.mem_append.mp member with inFirst | inRest
    · exact (firstNew inFirst).mono (List.subset_append_left _ _) fun x bound => .inl bound
    · refine (restNew inRest).mono (List.subset_append_right _ _) fun x bound => ?_
      by_cases defined : x ∈ definedBy first
      · exact .inr (List.mem_flatMap.mpr
          ⟨first, List.mem_append_left _ (mem_within_self first), defined⟩)
      · exact .inl (isBound_bindStmt_of_isBound bound defined)
  | function named bodyTraced _ =>
    exact .inside (inFunction_of_traces (.function named bodyTraced) member)
      ⟨_, List.mem_singleton_self _, rfl⟩

/-- Without functions, a piece declares only names that it assigns to and that are new to it. -/
theorem exists_declared_of_traces (traced : Traces piece table around events)
    (flat : ∀ value ∈ piece.statements, ¬ isDefinition value) {texts : List String}
    (member : texts ∈ declaredIn events) :
    ∃ names, names ≠ [] ∧ texts = names.map identName ∧
      ∀ x ∈ names, x ∈ piece.statements.flatMap assignedBy ∧ ¬ isBound table x := by
  obtain ⟨inner, declares⟩ := mem_declaredIn.mp member
  cases declaresNew_of_traces traced declares with
  | inside _ defines =>
    obtain ⟨value, valueMember, defines⟩ := defines
    exact absurd defines (flat value valueMember)
  | own names nonempty assigned new =>
    refine ⟨names, nonempty, rfl, fun x xMember => ⟨assigned xMember, fun bound => ?_⟩⟩
    obtain ⟨value, valueMember, defined⟩ := List.mem_flatMap.mp (new x xMember bound)
    refine flat value valueMember ?_
    rw [definedBy, Option.mem_toList, Option.map_eq_some_iff] at defined
    obtain ⟨definition, found, _⟩ := defined
    rw [isDefinition, found, Option.isSome_some]

/-! ### Declarations stand directly in the body -/

/-- Whether all names that first occur inside a block are bound already. -/
def Ready (table : Table) (body : List Stmt) : Prop :=
  ∀ x first, firstOccurrence? x (blockOccurrences false body) = some first → first.nested →
    isBound table x

theorem ready_bodyTable (table : Table) (definition : FunctionDef) :
    Ready (bodyTable table definition) definition.body := by
  intro x first found nested
  rw [bodyTable, isBound_foldl_declare, mem_declarations_iff]
  by_cases bound : isBound (entryTable table definition.name definition.params) x
  · exact .inr bound
  · exact .inl ⟨bound, first, found, nested⟩

theorem Ready.rest {first : Stmt} {rest : List Stmt} (ready : Ready table (first :: rest))
    (simple : ¬ isDefinition first) : Ready (bindStmt table first) rest := by
  intro x later found nested
  rw [isBound_bindStmt simple]
  unfold Ready at ready
  simp only [blockOccurrences, firstOccurrence?_append] at ready
  cases here : firstOccurrence? x (stmtOccurrences false first) with
  | none => exact .inr (ready x later (by rw [here, found, Option.none_or]) nested)
  | some earlier =>
    obtain ⟨member, rfl⟩ := mem_of_firstOccurrence? here
    rcases nested_or_mem_assignedBy member with isNested | assigned
    · exact .inr (ready _ earlier (by rw [here, Option.some_or]) isNested)
    · exact .inl (assignedBy_subset_boundBy first assigned)

/-- What occurs first in a statement is either assigned to by it or bound already. -/
theorem Ready.mem_assignedBy_or_isBound {first : Stmt} {rest : List Stmt}
    (ready : Ready table (first :: rest)) {x : String}
    (assigned : x ∈ (within first).flatMap assignedBy) :
    x ∈ assignedBy first ∨ isBound table x := by
  rw [← map_name_stmtOccurrences false] at assigned
  obtain ⟨occurrence, here⟩ := exists_firstOccurrence assigned
  obtain ⟨member, rfl⟩ := mem_of_firstOccurrence? here
  rcases nested_or_mem_assignedBy member with isNested | assigned
  · refine .inr (ready _ occurrence ?_ isNested)
    rw [blockOccurrences, firstOccurrence?_append, here, Option.some_or]
  · exact .inl assigned

/-- A statement that is directly in the body declares the names that it assigns to, or nothing. -/
theorem own_declares {first : Stmt} {rest : List Stmt} (ready : Ready table (first :: rest))
    (flat : ∀ value ∈ within first, ¬ isDefinition value)
    (traced : Traces (.stmt first) table around events) :
    declaredIn events = [] ∨
      declaredIn events = [(assignedBy first).map identName] ∧
        ∀ inner texts, .declares inner texts ∈ events → inner = around := by
  have compound (none : assignedBy first = []) : declaredIn events = [] := by
    refine List.eq_nil_iff_forall_not_mem.mpr fun texts member => ?_
    obtain ⟨names, nonempty, _, all⟩ := exists_declared_of_traces traced flat member
    obtain ⟨x, xMember⟩ := List.exists_mem_of_ne_nil names nonempty
    rcases ready.mem_assignedBy_or_isBound (all x xMember).1 with assigned | bound
    · rw [none] at assigned
      cases assigned
    · exact (all x xMember).2 bound
  cases traced with
  | settled _ plain =>
    refine .inl (List.eq_nil_iff_forall_not_mem.mpr fun texts member => ?_)
    obtain ⟨inner, declares⟩ := mem_declaredIn.mp member
    obtain ⟨_, impossible, _⟩ := plain _ declares
    cases impossible
  | @fresh _ _ _ later _ _ _ plain =>
    have silent : declaredIn later = [] := by
      refine List.eq_nil_iff_forall_not_mem.mpr fun texts member => ?_
      obtain ⟨inner, declares⟩ := mem_declaredIn.mp member
      cases plain _ declares
    refine .inr ⟨?_, fun inner texts member => ?_⟩
    · change _ :: declaredIn later = _
      rw [silent]
    · rcases List.mem_cons.mp member with same | inLater
      · cases same
        rfl
      · cases plain _ inLater
  | silent _ => exact .inl rfl
  | ifElse => exact .inl (compound rfl)
  | ifFurther => exact .inl (compound rfl)
  | whileLoop => exact .inl (compound rfl)
  | forLoop => exact .inl (compound rfl)
  | functionDef => exact .inl (compound rfl)
  | asyncFunctionDef => exact .inl (compound rfl)

/-- Whether no two of the names are written as the same identifier. -/
def WrittenApart (names : List String) : Prop :=
  ∀ x ∈ names, ∀ y ∈ names, identName x = identName y → x = y

instance (names : List String) : Decidable (WrittenApart names) :=
  inferInstanceAs (Decidable (∀ x ∈ names, ∀ y ∈ names, identName x = identName y → x = y))

/-- Whether all declarations stand directly in the innermost of the given blocks, and no two of
them declare the same name. -/
structure OwnLevel (around : List Stream) (events : List Event) : Prop where
  direct : ∀ inner texts, .declares inner texts ∈ events → inner = around
  disjoint : (declaredIn events).Pairwise List.Disjoint

section

variable {names : List String}

/-- Names that are known to one part and new to another are written apart. -/
theorem disjoint_of_isBound {first second : List String} (apart : WrittenApart names)
    (firstMember : first ⊆ names) (secondMember : second ⊆ names)
    (known : ∀ x ∈ first, isBound table x) (new : ∀ x ∈ second, ¬ isBound table x) :
    (first.map identName).Disjoint (second.map identName) := by
  intro text inFirst inSecond
  obtain ⟨x, xMember, rfl⟩ := List.mem_map.mp inFirst
  obtain ⟨y, yMember, same⟩ := List.mem_map.mp inSecond
  obtain rfl := apart y (secondMember yMember) x (firstMember xMember) same
  exact new y yMember (known y xMember)

theorem ownLevel_block {body : List Stmt} (traced : Traces (.block body) table around events)
    (flat : ∀ value ∈ withinAll body, ¬ isDefinition value) (ready : Ready table body)
    (apart : WrittenApart names) (assigned : (withinAll body).flatMap assignedBy ⊆ names) :
    OwnLevel around events := by
  induction body generalizing table events with
  | nil =>
    cases traced
    exact ⟨fun _ _ member => (nomatch member), .nil⟩
  | cons first rest inductionHypothesis =>
    rw [withinAll, List.forall_mem_append] at flat
    rw [withinAll, List.flatMap_append, List.append_subset] at assigned
    have simple : ¬ isDefinition first := flat.1 first (mem_within_self first)
    cases traced with
    | blockCons firstTraced restTraced =>
    obtain ⟨restDirect, restDisjoint⟩ :=
      inductionHypothesis restTraced flat.2 (ready.rest simple) assigned.2
    rcases own_declares ready flat.1 firstTraced with silent | ⟨declared, firstDirect⟩
    · refine ⟨fun inner texts member => ?_, ?_⟩
      · rcases List.mem_append.mp member with inFirst | inRest
        · have nowhere := mem_declaredIn.mpr ⟨inner, inFirst⟩
          rw [silent] at nowhere
          cases nowhere
        · exact restDirect inner texts inRest
      · rw [declaredIn_append, silent, List.nil_append]
        exact restDisjoint
    · refine ⟨fun inner texts member => ?_, ?_⟩
      · rcases List.mem_append.mp member with inFirst | inRest
        · exact firstDirect inner texts inFirst
        · exact restDirect inner texts inRest
      · rw [declaredIn_append, declared, List.singleton_append, List.pairwise_cons]
        refine ⟨fun texts member => ?_, restDisjoint⟩
        obtain ⟨others, _, rfl, all⟩ := exists_declared_of_traces restTraced flat.2 member
        have firstAmong : assignedBy first ⊆ names := fun x xMember =>
          assigned.1 (List.mem_flatMap.mpr ⟨first, mem_within_self first, xMember⟩)
        have othersAmong : others ⊆ names := fun x xMember => assigned.2 (all x xMember).1
        refine disjoint_of_isBound apart firstAmong othersAmong (fun x xMember => ?_)
          fun x xMember => (all x xMember).2
        exact (isBound_bindStmt simple).mpr (.inl (assignedBy_subset_boundBy first xMember))

end

/-! ### Assignments are to known names -/

/-- The names that a statement binds as the target of a loop. -/
def loopedBy : Stmt → List String
  | .forLoop place _ _ _ => targetNames place
  | _ => []

/-- The names that a statement assigns to or binds, in any way. -/
def namesIn (value : Stmt) : List String :=
  assignedBy value ++ augmentedBy value ++ loopedBy value

/-- Whether a hint is given to a single place only. -/
def hintsOnePlace : Stmt → Bool
  | .annAssign (.name _) _ _ => true
  | .annAssign (.attribute ..) _ _ => true
  | .annAssign (.subscript ..) _ _ => true
  | .annAssign .. => false
  | _ => true

theorem not_hintsOnePlace {value : Stmt} (silent : isSilent value) : ¬ hintsOnePlace value := by
  unfold isSilent at silent
  split at silent
  · exact Bool.false_ne_true
  · cases silent

/-- Whether each of the names that is assigned to is known at first, bound by the head of a loop
around the assignment, or declared before. -/
def Covers (known : String → Prop) (names : List String) (events : List Event) : Prop :=
  ∀ earlier inner texts later, events = earlier ++ .assigns inner texts :: later →
    ∀ x ∈ names, identName x ∈ texts →
      known x ∨ (∃ head ∈ inner, identName x ∈ loopNames head) ∨
        ∃ declared ∈ declaredIn earlier, identName x ∈ declared

theorem split_append {α : Type} {first second before after : List α} {middle : α}
    (split : first ++ second = before ++ middle :: after) :
    (∃ rest, first = before ++ middle :: rest) ∨
      ∃ between, before = first ++ between ∧ second = between ++ middle :: after := by
  rcases List.append_eq_append_iff.mp split with
    ⟨between, beforeEq, secondEq⟩ | ⟨between, firstEq, rest⟩
  · exact .inr ⟨between, beforeEq, secondEq⟩
  · cases between with
    | nil => exact .inr ⟨[], by rw [firstEq, List.append_nil, List.append_nil], rest.symm⟩
    | cons head between =>
      obtain ⟨rfl, _⟩ := List.cons.inj rest
      exact .inl ⟨between, firstEq⟩

namespace Covers

variable {known inside : String → Prop} {names : List String} {first second : List Event}

theorem nil : Covers known names [] := by
  intro earlier inner texts later split
  simp at split

/-- What the first part declares is known to the second. -/
theorem append (firstCovers : Covers known names first) (secondCovers : Covers inside names second)
    (kept : ∀ x ∈ names, inside x →
      known x ∨ ∃ declared ∈ declaredIn first, identName x ∈ declared) :
    Covers known names (first ++ second) := by
  intro earlier inner texts later split x member assigned
  rcases split_append split with ⟨rest, rfl⟩ | ⟨between, rfl, rfl⟩
  · exact firstCovers earlier inner texts rest rfl x member assigned
  · rw [declaredIn_append]
    rcases secondCovers between inner texts later rfl x member assigned with
      isKnown | looped | ⟨declared, declaredMember, found⟩
    · rcases kept x member isKnown with isKnown | ⟨declared, declaredMember, found⟩
      · exact .inl isKnown
      · exact .inr (.inr ⟨declared, List.mem_append_left _ declaredMember, found⟩)
    · exact .inr (.inl looped)
    · exact .inr (.inr ⟨declared, List.mem_append_right _ declaredMember, found⟩)

/-- What the head of a block binds is known inside it. -/
theorem block {head : Stream} {around : List Stream} (covers : Covers inside names first)
    (opened : ∀ event ∈ first, ∃ opened, event.around = opened ++ head :: around)
    (kept : ∀ x ∈ names, inside x → known x ∨ identName x ∈ loopNames head) :
    Covers known names first := by
  intro earlier inner texts later split x member assigned
  rcases covers earlier inner texts later split x member assigned with isKnown | others
  · rcases kept x member isKnown with isKnown | looped
    · exact .inl isKnown
    · obtain ⟨blocks, equal⟩ := opened (.assigns inner texts) (by rw [split]; simp)
      refine .inr (.inl ⟨head, ?_, looped⟩)
      change inner = _ at equal
      rw [equal]
      exact List.mem_append_right _ List.mem_cons_self
  · exact .inr others

end Covers

/-- What a statement assigns to is bound before it or declared by it. -/
theorem bound_or_declared {value : Stmt} (traced : Traces (.stmt value) table around events)
    (spoken : ¬ isSilent value) {x : String} (assigned : x ∈ assignedBy value) :
    isBound table x ∨ .declares around ((assignedBy value).map identName) ∈ events := by
  cases traced with
  | settled known _ => exact .inl (known x assigned)
  | fresh _ _ _ _ => exact .inr List.mem_cons_self
  | silent isSilent => exact absurd isSilent spoken
  | ifElse => cases assigned
  | ifFurther => cases assigned
  | whileLoop => cases assigned
  | forLoop => cases assigned
  | functionDef => cases assigned
  | asyncFunctionDef => cases assigned

theorem mem_assignedBy_or_augmentedBy {value : Stmt} {x : String} (bound : x ∈ boundBy value) :
    x ∈ assignedBy value ∨ x ∈ augmentedBy value := by
  cases value with
  | assign targets _ => exact .inl bound
  | annAssign target _ _ => exact .inl bound
  | augAssign target _ _ => exact .inr (targetNames_subset_writtenNames target bound)
  | _ => cases bound

/-- A statement that defines no function, gives hints to single places only, has only names among
all of them, and assigns with no operator to the chosen ones. -/
structure Regular (all names : List String) (value : Stmt) : Prop where
  flat : ¬ isDefinition value
  hinted : hintsOnePlace value
  among : namesIn value ⊆ all
  plain : ∀ x ∈ names, x ∉ augmentedBy value

/-- Every assignment in regular statements is to a known name. -/
theorem covers_of_traces {all names : List String} (apart : WrittenApart all) (chosen : names ⊆ all)
    (traced : Traces piece table around events)
    (regular : ∀ value ∈ piece.statements, Regular all names value) :
    Covers (fun x => isBound table x) names events := by
  induction traced with
  | @settled value _ _ _ known plain =>
    intro earlier inner texts later split x member assigned
    obtain ⟨valueFlat, valueHinted, among, noOperator⟩ := regular value (mem_within_self value)
    obtain ⟨_, same, written⟩ := plain (.assigns inner texts) (by rw [split]; simp)
    cases same
    obtain ⟨y, yMember, same⟩ := written _ assigned
    obtain rfl := apart y (among (List.mem_append_left _ yMember)) x (chosen member) same
    rcases List.mem_append.mp yMember with isAssigned | isAugmented
    · exact .inl (known y isAssigned)
    · exact absurd isAugmented (noOperator y member)
  | fresh _ _ _ plain =>
    intro earlier inner texts later split x member assigned
    have found := List.mem_append_right earlier (@List.mem_cons_self _ (.assigns inner texts) later)
    rw [← split] at found
    rcases List.mem_cons.mp found with impossible | inLater
    · cases impossible
    · cases plain _ inLater
      cases assigned
  | silent _ => exact .nil
  | ifElse bodyTraced otherTraced bodyCovers otherCovers =>
    rw [Piece.statements, within, List.forall_mem_cons, List.forall_mem_append] at regular
    refine .append (.block (bodyCovers regular.2.1) (around_of_traces bodyTraced) ?_)
      (.block (otherCovers regular.2.2) (around_of_traces otherTraced) ?_)
      fun x _ bound => .inl bound
    · exact fun x _ bound => .inl (by simpa using bound)
    · exact fun x _ bound => .inl (by simpa using bound)
  | ifFurther bodyTraced _ bodyCovers furtherCovers =>
    rw [Piece.statements, within, List.forall_mem_cons, List.forall_mem_append, withinAll,
      withinAll, List.append_nil] at regular
    refine .append (.block (bodyCovers regular.2.1) (around_of_traces bodyTraced) ?_)
      (furtherCovers regular.2.2) fun x _ bound => .inl bound
    exact fun x _ bound => .inl (by simpa using bound)
  | whileLoop bodyTraced bodyCovers =>
    rw [Piece.statements, within, List.forall_mem_cons, List.forall_mem_append] at regular
    refine .block (bodyCovers regular.2.1) (around_of_traces bodyTraced) ?_
    exact fun x _ bound => .inl (by simpa using bound)
  | forLoop looped bodyTraced bodyCovers =>
    rw [Piece.statements, within, List.forall_mem_cons, List.forall_mem_append] at regular
    refine .block (bodyCovers regular.2.1) (around_of_traces bodyTraced) fun x _ bound => ?_
    rcases (isBound_bindTarget _ _ _).mp bound with inTarget | bound
    · exact .inr (looped x inTarget)
    · exact .inl (by simpa using bound)
  | functionDef => exact absurd rfl (regular _ (mem_within_self _)).flat
  | asyncFunctionDef => exact absurd rfl (regular _ (mem_within_self _)).flat
  | blockNil => exact .nil
  | @blockCons first _ _ _ _ _ firstTraced _ firstCovers restCovers =>
    rw [Piece.statements, withinAll, List.forall_mem_append] at regular
    obtain ⟨simple, hinted, _, noOperator⟩ := regular.1 first (mem_within_self first)
    refine .append (firstCovers regular.1) (restCovers regular.2) fun x member bound => ?_
    rcases (isBound_bindStmt simple).mp bound with boundHere | bound
    · rcases mem_assignedBy_or_augmentedBy boundHere with isAssigned | isAugmented
      · have spoken : ¬ isSilent first := fun silent => not_hintsOnePlace silent hinted
        refine (bound_or_declared firstTraced spoken isAssigned).imp id fun declares => ?_
        exact ⟨_, mem_declaredIn.mpr ⟨_, declares⟩, List.mem_map_of_mem isAssigned⟩
      · exact absurd isAugmented (noOperator x member)
    · exact .inl bound
  | function => exact absurd rfl (regular _ (List.mem_singleton_self _)).flat

/-! ### Functions -/

/-- The names of a function: its parameters, and all that its statements assign to or bind. -/
def functionNames (definition : FunctionDef) : List String :=
  definition.params.map ParamOf.name ++ (withinAll definition.body).flatMap namesIn

/-- The names of a function that no operator assigns to. -/
def plainNames (definition : FunctionDef) : List String :=
  (functionNames definition).filter fun x =>
    x ∉ (withinAll definition.body).flatMap augmentedBy

/-- The rules of the written language for the variables of a function. -/
structure Scoped (definition : FunctionDef) (table : Table) (events : List Event) : Prop where
  /-- Every declaration stands in one block only, that of the function. -/
  direct : ∀ around names, .declares around names ∈ events → around.length = 1
  /-- No name is declared by two declarations. -/
  disjoint : (declaredIn events).Pairwise List.Disjoint
  /-- Only names that the function assigns to are declared. -/
  named : ∀ names ∈ declaredIn events,
    names ⊆ ((withinAll definition.body).flatMap assignedBy).map identName
  /-- Neither a parameter is declared nor a name that the table has. -/
  new : ∀ names ∈ declaredIn events, ∀ x ∈ functionNames definition, identName x ∈ names →
    x ∉ definition.params.map ParamOf.name ∧ ¬ isBound table x
  /-- What is assigned to is a parameter, in the table, bound by a loop or declared before. -/
  covered : (∀ value ∈ withinAll definition.body, hintsOnePlace value) →
    Covers (fun x => x ∈ definition.params.map ParamOf.name ∨ isBound table x)
      (plainNames definition) events

section

variable {definition : FunctionDef}

theorem assigned_subset_functionNames :
    (withinAll definition.body).flatMap assignedBy ⊆ functionNames definition := by
  intro x member
  obtain ⟨value, valueMember, assigned⟩ := List.mem_flatMap.mp member
  refine List.mem_append_right _ (List.mem_flatMap.mpr ⟨value, valueMember, ?_⟩)
  exact List.mem_append_left _ (List.mem_append_left _ assigned)

/-- A name that is declared in front is assigned to in the body, and new. -/
theorem mem_assigned_of_mem_declarations {x : String} {body : List Stmt}
    (member : x ∈ (declarations table body).map Declaration.name) :
    x ∈ (withinAll body).flatMap assignedBy ∧ ¬ isBound table x := by
  obtain ⟨free, first, found, _⟩ := mem_declarations_iff.mp member
  obtain ⟨inBody, rfl⟩ := mem_of_firstOccurrence? found
  rw [← map_name_blockOccurrences false]
  exact ⟨List.mem_map_of_mem inBody, free⟩

theorem declaredIn_front (front : List Declaration) (around : List Stream) :
    declaredIn (front.map fun declaration => .declares around [identName declaration.name]) =
      (front.map Declaration.name).map fun x => [x].map identName := by
  induction front with
  | nil => rfl
  | cons first rest inductionHypothesis =>
    rw [List.map_cons, List.map_cons, List.map_cons, ← inductionHypothesis]
    rfl

theorem pairwise_disjoint_front {names front : List String} (apart : WrittenApart names)
    (among : front ⊆ names) (nodup : front.Nodup) :
    (front.map fun x => [x].map identName).Pairwise List.Disjoint := by
  rw [List.pairwise_map]
  refine nodup.imp_of_mem fun {x y} xMember yMember different => ?_
  rw [List.map_singleton, List.map_singleton, List.singleton_disjoint, List.mem_singleton]
  exact fun same => different (apart x (among xMember) y (among yMember) same)

theorem isBound_bodyTable {x : String} : isBound (bodyTable table definition) x ↔
    x ∈ (declarations (entryTable table definition.name definition.params) definition.body).map
      Declaration.name ∨ x ∈ definition.params.map ParamOf.name ∨ isBound table x := by
  rw [bodyTable, isBound_foldl_declare, isBound_entryTable]

/-- A function declares only names that it assigns to and that are no parameters. -/
theorem exists_declared_of_function (traced : Traces (.function definition) table around events)
    (flat : ∀ value ∈ withinAll definition.body, ¬ isDefinition value) {texts : List String}
    (member : texts ∈ declaredIn events) :
    ∃ names : List String, texts = names.map identName ∧ ∀ x ∈ names,
      x ∈ (withinAll definition.body).flatMap assignedBy ∧
        x ∉ definition.params.map ParamOf.name ∧ ¬ isBound table x := by
  cases traced with
  | function _ bodyTraced =>
  rw [declaredIn_append, declaredIn_front, List.mem_append, List.mem_map] at member
  rcases member with ⟨x, xMember, rfl⟩ | inBody
  · refine ⟨[x], rfl, List.forall_mem_singleton.mpr ?_⟩
    have found := mem_assigned_of_mem_declarations xMember
    rwa [isBound_entryTable, not_or] at found
  · obtain ⟨names, _, equal, all⟩ := exists_declared_of_traces bodyTraced flat inBody
    refine ⟨names, equal, fun x xMember => ?_⟩
    obtain ⟨assigned, free⟩ := all x xMember
    rw [isBound_bodyTable, not_or, not_or] at free
    exact ⟨assigned, free.2⟩

theorem ownLevel_function (traced : Traces (.function definition) table around events)
    (flat : ∀ value ∈ withinAll definition.body, ¬ isDefinition value)
    (apart : WrittenApart (functionNames definition)) :
    ∃ head, OwnLevel (head :: around) events := by
  cases traced with
  | @function _ _ _ head bodyEvents _ bodyTraced =>
  have assigned := @assigned_subset_functionNames definition
  obtain ⟨bodyDirect, bodyDisjoint⟩ :=
    ownLevel_block bodyTraced flat (ready_bodyTable table definition) apart assigned
  have among : (declarations (entryTable table definition.name definition.params)
      definition.body).map Declaration.name ⊆ functionNames definition :=
    fun x member => assigned (mem_assigned_of_mem_declarations member).1
  refine ⟨head, fun inner texts member => ?_, ?_⟩
  · rcases List.mem_append.mp member with inFront | inBody
    · obtain ⟨declaration, _, same⟩ := List.mem_map.mp inFront
      cases same
      rfl
    · exact bodyDirect inner texts inBody
  · rw [declaredIn_append, declaredIn_front, List.pairwise_append]
    refine ⟨pairwise_disjoint_front apart among (nodup_declarations _), bodyDisjoint, ?_⟩
    intro first firstMember second secondMember
    obtain ⟨x, xMember, rfl⟩ := List.mem_map.mp firstMember
    obtain ⟨others, _, rfl, all⟩ := exists_declared_of_traces bodyTraced flat secondMember
    -- What is declared in front is known to the body, which declares only what it does not know.
    refine disjoint_of_isBound apart ?_ (fun y yMember => assigned (all y yMember).1) ?_
      fun y yMember => (all y yMember).2
    · exact List.cons_subset.mpr ⟨among xMember, List.nil_subset _⟩
    · exact List.forall_mem_singleton.mpr (isBound_bodyTable.mpr (.inl xMember))

theorem regular_of_mem {value : Stmt} (flat : ¬ isDefinition value) (hinted : hintsOnePlace value)
    (member : value ∈ withinAll definition.body) :
    Regular (functionNames definition) (plainNames definition) value where
  flat := flat
  hinted := hinted
  among x named := List.mem_append_right _ (List.mem_flatMap.mpr ⟨value, member, named⟩)
  plain x isPlain isAugmented := by
    have absent := (List.mem_filter.mp isPlain).2
    rw [decide_eq_true_eq] at absent
    exact absent (List.mem_flatMap.mpr ⟨value, member, isAugmented⟩)

theorem covers_function (traced : Traces (.function definition) table around events)
    (flat : ∀ value ∈ withinAll definition.body, ¬ isDefinition value)
    (hinted : ∀ value ∈ withinAll definition.body, hintsOnePlace value)
    (apart : WrittenApart (functionNames definition)) :
    Covers (fun x => x ∈ definition.params.map ParamOf.name ∨ isBound table x)
      (plainNames definition) events := by
  cases traced with
  | function _ bodyTraced =>
  refine .append ?_ (covers_of_traces apart List.filter_sublist.subset bodyTraced
    fun value member => regular_of_mem (flat value member) (hinted value member) member) ?_
  · intro earlier inner texts later split
    have found := List.mem_append_right earlier (@List.mem_cons_self _ (.assigns inner texts) later)
    rw [← split] at found
    obtain ⟨_, _, impossible⟩ := List.mem_map.mp found
    cases impossible
  · intro x _ bound
    rw [declaredIn_front]
    rcases isBound_bodyTable.mp bound with declared | known
    · exact .inr ⟨_, List.mem_map_of_mem declared, List.mem_singleton_self _⟩
    · exact .inl known

/-- The variables of a function without functions in it are declared as the written language
wants it. -/
theorem scoped_function {options : Options} {context : Context} {stream : Stream}
    (lowered : function options definition context table = .ok stream)
    (flat : ∀ value ∈ withinAll definition.body, ¬ isDefinition value)
    (apart : WrittenApart (functionNames definition)) :
    Scoped definition table (Spot.events ⟨[], []⟩ stream.bare) := by
  have traced := traces_of_emits (emits_of_function definition context table stream lowered)
    ⟨[], []⟩ rfl
  obtain ⟨head, ownLevel⟩ := ownLevel_function traced flat apart
  refine ⟨fun around names member => ?_, ownLevel.disjoint, fun names member text inNames => ?_,
    fun names member x xNamed inNames => ?_, fun hinted => covers_function traced flat hinted apart⟩
  · rw [ownLevel.direct around names member]
    rfl
  · obtain ⟨declared, rfl, all⟩ := exists_declared_of_function traced flat member
    obtain ⟨x, xMember, rfl⟩ := List.mem_map.mp inNames
    exact List.mem_map_of_mem (all x xMember).1
  · obtain ⟨declared, rfl, all⟩ := exists_declared_of_function traced flat member
    obtain ⟨y, yMember, same⟩ := List.mem_map.mp inNames
    obtain ⟨assigned, new⟩ := all y yMember
    obtain rfl := apart y (assigned_subset_functionNames assigned) x xNamed same
    exact new

/-- A function that binds names in blocks, in a loop, by unpacking and again. -/
theorem scoped_function_with_loop :
    let body : List Stmt :=
      [.ifElse (.name "n") [.assign [.name "a"] (.constant (.int "1"))] [],
        .forLoop (.name "i") (.name "n")
          [.assign [.tuple [.name "a", .name "i"]] (.name "n")] [],
        .assign [.tuple [.name "b", .name "c"]] (.name "n"),
        .assign [.name "b"] (.name "a"),
        .augAssign (.name "c") "Add" (.name "b")]
    let definition : FunctionDef :=
      { FunctionOf.empty "f" with
        params := [⟨"n", .positional, .name "int", .absent⟩]
        body }
    ∃ stream, function {} definition .module Table.new = .ok stream ∧
      Scoped definition Table.new (Spot.events ⟨[], []⟩ stream.bare) := by
  intro body definition
  obtain ⟨stream, lowered⟩ : ∃ stream, function {} definition .module Table.new = .ok stream :=
    ⟨_, rfl⟩
  exact ⟨stream, lowered, scoped_function lowered (by decide) (by decide)⟩

end

end Lower

end Oxide
