/-
This file says which variables a function declares that is defined inside another function. It is
lowered with the table of the place where it is defined, and looks its names up through all scopes
of that table. So a name that it assigns to is declared in it exactly if the functions around it
have no variable or parameter of that name there, and if it does not assign to the name with an
operator before.
-/

import Oxide.Proofs.ModuleEmission
import Oxide.Proofs.Scoping

namespace Oxide.Lower

/-! ### Functions inside functions -/

mutual

/-- The functions that a statement defines at any depth, with the context and the table that each
of them is lowered with. A loop with something behind it is never lowered. -/
def stmtItems : Stmt → Context → Table → List Item
  | .functionDef definition, context, table =>
    ⟨definition, context, table⟩ :: functionItems definition context table
  | .asyncFunctionDef definition, _, table =>
    ⟨definition, .async definition.name, table⟩ ::
      functionItems definition (.async definition.name) table
  | .ifElse _ body orelse, context, table =>
    blockItems body context (table.push .block "if") ++
      if isFurtherCondition orelse then firstItems orelse context table
      else blockItems orelse context (table.push .block "else")
  | .whileLoop _ body _, context, table => blockItems body context (table.push .block "while")
  | .forLoop place _ body _, context, table =>
    blockItems body context (bindTarget place .absent (table.push .block "for"))
  | _, _, _ => []

/-- The functions that the statements of a block define. -/
def blockItems : List Stmt → Context → Table → List Item
  | [], _, _ => []
  | first :: rest, context, table =>
    stmtItems first context table ++ blockItems rest context (bindStmt table first)

/-- The functions that the first statement of a list defines. -/
def firstItems : List Stmt → Context → Table → List Item
  | [], _, _ => []
  | first :: _, context, table => stmtItems first context table

/-- The functions that are defined inside a function. -/
def functionItems : FunctionOf Stmt → Context → Table → List Item
  | ⟨name, parameters, body, decorators, returns⟩, context, table =>
    blockItems body context (bodyTable table ⟨name, parameters, body, decorators, returns⟩)

end

theorem functionItems_eq (definition : FunctionDef) (context : Context) (table : Table) :
    functionItems definition context table =
      blockItems definition.body context (bodyTable table definition) := by
  rw [functionItems.eq_def]

/-- The functions that are defined inside an item. -/
def Item.nested (item : Item) : List Item :=
  functionItems item.definition item.context item.table

/-- The functions that a piece defines. -/
def Piece.items : Piece → Context → Table → List Item
  | .stmt value => stmtItems value
  | .block body => blockItems body
  | .function definition => functionItems definition

/-- Whether a stream stands as a whole in another one. -/
def PartOf (part stream : Stream) : Prop :=
  ∃ before after, stream = before ++ (part ++ after)

namespace PartOf

variable {part first second : Stream}

theorem refl (stream : Stream) : PartOf stream stream :=
  ⟨[], [], by rw [List.append_nil, List.nil_append]⟩

theorem left (found : PartOf part first) : PartOf part (first ++ second) := by
  obtain ⟨before, after, rfl⟩ := found
  exact ⟨before, after ++ second, by simp only [List.append_assoc]⟩

theorem right (found : PartOf part second) : PartOf part (first ++ second) := by
  obtain ⟨before, after, rfl⟩ := found
  exact ⟨first ++ before, after, by rw [List.append_assoc]⟩

theorem cons {token : Token} (found : PartOf part first) : PartOf part (token :: first) :=
  @right part [token] first found

theorem braced {opened : Stream} (found : PartOf part first) :
    PartOf part (Lower.braced opened first) := by
  rw [Lower.braced, Stream.group, if_pos rfl]
  exact found.right.left

theorem trans {middle : Stream} (found : PartOf part middle) (inside : PartOf middle second) :
    PartOf part second := by
  obtain ⟨before, after, rfl⟩ := inside
  exact found.left.right

end PartOf

variable {options : Options}

/-- Each function that a piece defines is written as a whole in what the piece emits. -/
theorem exists_part_of_emits {piece : Piece} {context : Context} {table : Table} {stream : Stream}
    (emitted : Emits options piece context table stream) :
    ∀ item ∈ piece.items context table,
      ∃ part, item.Lowered options part ∧ PartOf part stream := by
  induction emitted with
  | functionDef lowered _ found =>
    rw [Piece.items, stmtItems, List.forall_mem_cons]
    exact ⟨⟨_, lowered, .refl _⟩, found⟩
  | asyncFunctionDef lowered _ found =>
    rw [Piece.items, stmtItems, List.forall_mem_cons]
    exact ⟨⟨_, lowered, .refl _⟩, found⟩
  | ifOnly _ _ found =>
    intro item member
    rw [Piece.items, stmtItems, if_neg (show ¬ isFurtherCondition [] from Bool.false_ne_true),
      blockItems, List.append_nil] at member
    obtain ⟨part, lowered, inBody⟩ := found item member
    exact ⟨part, lowered, inBody.braced⟩
  | ifFurther _ _ _ bodyFound furtherFound =>
    intro item member
    rw [Piece.items, stmtItems, isFurtherCondition, if_pos rfl, firstItems, List.mem_append]
      at member
    rcases member with inBody | inFurther
    · obtain ⟨part, lowered, isPart⟩ := bodyFound item inBody
      exact ⟨part, lowered, isPart.braced.left.left⟩
    · obtain ⟨part, lowered, isPart⟩ := furtherFound item inFurther
      exact ⟨part, lowered, isPart.right⟩
  | ifElse _ noFurther _ _ _ bodyFound otherFound =>
    intro item member
    rw [Piece.items, stmtItems, noFurther, if_neg Bool.false_ne_true, List.mem_append] at member
    rcases member with inBody | inOther
    · obtain ⟨part, lowered, isPart⟩ := bodyFound item inBody
      refine ⟨part, lowered, ?_⟩
      rw [braced, Stream.group, if_pos rfl]
      exact isPart.braced.left.left.left.left
    · obtain ⟨part, lowered, isPart⟩ := otherFound item inOther
      exact ⟨part, lowered, isPart.braced⟩
  | forever _ _ found =>
    intro item member
    rw [Piece.items, stmtItems] at member
    obtain ⟨part, lowered, inBody⟩ := found item member
    exact ⟨part, lowered, inBody.braced⟩
  | whileLoop _ _ found =>
    intro item member
    rw [Piece.items, stmtItems] at member
    obtain ⟨part, lowered, inBody⟩ := found item member
    exact ⟨part, lowered, inBody.braced⟩
  | forLoop _ _ _ found =>
    intro item member
    rw [Piece.items, stmtItems] at member
    obtain ⟨part, lowered, inBody⟩ := found item member
    exact ⟨part, lowered, inBody.braced⟩
  | blockNil =>
    intro item member
    cases member
  | blockCons _ _ firstFound restFound =>
    intro item member
    rw [Piece.items, blockItems, List.mem_append] at member
    rcases member with inFirst | inRest
    · obtain ⟨part, lowered, isPart⟩ := firstFound item inFirst
      exact ⟨part, lowered, isPart.left.left⟩
    · obtain ⟨part, lowered, isPart⟩ := restFound item inRest
      exact ⟨part, lowered, isPart.right⟩
  | function _ _ _ _ found =>
    intro item member
    rw [Piece.items, functionItems_eq] at member
    obtain ⟨part, lowered, inBody⟩ := found item member
    exact ⟨part, lowered, inBody.right.braced⟩
  | _ =>
    intro item member
    cases member

/-! ### Names that a function declares itself -/

/-- Whether a block is that of a function. -/
def isFunctionHead (head : Stream) : Bool :=
  head.any fun token => token.isKeyword "fn"

/-- Whether a function declares a name, and not one of the functions inside it. -/
def DeclaresItself (part : Stream) (x : String) : Prop :=
  ∃ around names, .declares around names ∈ Spot.events ⟨[], []⟩ part.bare ∧
    around.countP isFunctionHead = 1 ∧ identName x ∈ names

/-- Whether the first statement that assigns to a name stands directly in the body, and either is
silent or comes behind one that assigns to the name with an operator. -/
def Skips (body : List Stmt) (x : String) : Prop :=
  ∃ before value after, body = before ++ value :: after ∧
    x ∉ (withinAll before).flatMap assignedBy ∧ x ∈ assignedBy value ∧
      (isSilent value ∨ ∃ earlier ∈ before, x ∈ boundBy earlier)

variable {table : Table} {around : List Stream} {events : List Event} {x : String}

/-- The trace of a block is that of its statements, one after another. -/
theorem traces_split {before after : List Stmt} {value : Stmt}
    (traced : Traces (.block (before ++ value :: after)) table around events) :
    ∃ first middle last, events = first ++ (middle ++ last) ∧
      Traces (.block before) table around first ∧
      Traces (.stmt value) (before.foldl bindStmt table) around middle ∧
      Traces (.block after) (bindStmt (before.foldl bindStmt table) value) around last := by
  induction before generalizing table events with
  | nil =>
    cases traced with
    | blockCons valueTraced afterTraced =>
      exact ⟨[], _, _, rfl, .blockNil, valueTraced, afterTraced⟩
  | cons head rest inductionHypothesis =>
    cases traced with
    | @blockCons _ _ _ _ headEvents _ headTraced restTraced =>
      obtain ⟨first, middle, last, rfl, beforeTraced, valueTraced, afterTraced⟩ :=
        inductionHypothesis restTraced
      exact ⟨headEvents ++ first, middle, last, by rw [List.append_assoc],
        .blockCons headTraced beforeTraced, valueTraced, afterTraced⟩

/-- A name that no statement binds is not bound behind them. -/
theorem not_isBound_foldl {before : List Stmt} (free : ¬ isBound table x)
    (unbound : ∀ earlier ∈ before, x ∉ boundBy earlier) :
    ¬ isBound (before.foldl bindStmt table) x := by
  induction before generalizing table with
  | nil => exact free
  | cons first rest inductionHypothesis =>
    rw [List.forall_mem_cons] at unbound
    exact inductionHypothesis (not_isBound_bindStmt free unbound.1) unbound.2

/-- A name that is bound stays so behind statements that define no function of that name. -/
theorem isBound_foldl {before : List Stmt} (bound : isBound table x)
    (undefined : ∀ earlier ∈ before, x ∉ definedBy earlier) :
    isBound (before.foldl bindStmt table) x := by
  induction before generalizing table with
  | nil => exact bound
  | cons first rest inductionHypothesis =>
    rw [List.forall_mem_cons] at undefined
    exact inductionHypothesis (isBound_bindStmt_of_isBound bound undefined.1) undefined.2

/-- A name that is assigned to is assigned to in some statement of the body first. -/
theorem exists_first_assigning {body : List Stmt}
    (assigned : x ∈ (withinAll body).flatMap assignedBy) :
    ∃ before value after, body = before ++ value :: after ∧
      x ∉ (withinAll before).flatMap assignedBy ∧ x ∈ (within value).flatMap assignedBy := by
  induction body with
  | nil => cases assigned
  | cons first rest inductionHypothesis =>
    by_cases here : x ∈ (within first).flatMap assignedBy
    · exact ⟨[], first, rest, rfl, List.not_mem_nil, here⟩
    · rw [withinAll, List.flatMap_append, List.mem_append] at assigned
      obtain ⟨before, value, after, rfl, absent, found⟩ :=
        inductionHypothesis (assigned.resolve_left here)
      refine ⟨first :: before, value, after, rfl, ?_, found⟩
      rw [withinAll, List.flatMap_append, List.mem_append, not_or]
      exact ⟨here, absent⟩

/-- The first occurrence of a name is in the first statement that assigns to it. -/
theorem firstOccurrence?_split {before after : List Stmt} {value : Stmt}
    (absent : x ∉ (withinAll before).flatMap assignedBy)
    (found : x ∈ (within value).flatMap assignedBy) :
    ∃ first ∈ stmtOccurrences false value, first.name = x ∧
      firstOccurrence? x (blockOccurrences false (before ++ value :: after)) = some first := by
  rw [← map_name_stmtOccurrences false] at found
  rw [← map_name_blockOccurrences false] at absent
  have nowhere : firstOccurrence? x (blockOccurrences false before) = none := by
    rw [firstOccurrence?, List.find?_eq_none]
    intro occurrence member same
    refine absent (List.mem_map.mpr ⟨occurrence, member, ?_⟩)
    simpa using same
  obtain ⟨first, here⟩ := exists_firstOccurrence found
  obtain ⟨member, same⟩ := mem_of_firstOccurrence? here
  refine ⟨first, member, same, ?_⟩
  rw [blockOccurrences_append, firstOccurrence?_append, nowhere, Option.none_or, blockOccurrences,
    firstOccurrence?_append, here, Option.some_or]

/-- A name that is skipped does not first occur inside a block. -/
theorem Skips.not_nested {body : List Stmt} (skips : Skips body x) {first : Occurrence}
    (found : firstOccurrence? x (blockOccurrences false body) = some first) : ¬ first.nested := by
  obtain ⟨before, value, after, rfl, absent, assigned, _⟩ := skips
  obtain ⟨other, member, _, foundHere⟩ := @firstOccurrence?_split _ _ after _ absent
    (List.mem_flatMap.mpr ⟨value, mem_within_self value, assigned⟩)
  rw [foundHere] at found
  cases found
  exact not_nested_of_mem_stmtOccurrences member (List.ne_nil_of_mem assigned)

/-- Where all statements are written and no operator assigns to a name, it is not skipped. -/
theorem not_skips {body : List Stmt} (spoken : ∀ value ∈ body, ¬ isSilent value)
    (plain : ∀ value ∈ body, x ∉ augmentedBy value) : ¬ Skips body x := by
  rintro ⟨before, value, after, rfl, absent, _, silent | ⟨earlier, member, bound⟩⟩
  · exact spoken value (List.mem_append_right _ List.mem_cons_self) silent
  · rcases mem_assignedBy_or_augmentedBy bound with assigned | augmented
    · exact absent (List.mem_flatMap.mpr ⟨earlier, mem_withinAll_of_mem member, assigned⟩)
    · exact plain earlier (List.mem_append_left _ member) augmented

/-- A function declares what it assigns to, unless that is known before or skipped. -/
theorem exists_own_declaration {definition : FunctionDef}
    (traced : Traces (.function definition) table around events)
    (assigned : x ∈ (withinAll definition.body).flatMap assignedBy)
    (noParam : x ∉ definition.params.map ParamOf.name) (free : ¬ isBound table x)
    (kept : ¬ Skips definition.body x) :
    ∃ head names, .keyword "fn" ∈ head ∧ .declares (head :: around) names ∈ events ∧
      identName x ∈ names := by
  cases traced with
  | @function _ _ _ head bodyEvents named bodyTraced =>
  obtain ⟨before, value, after, isBody, absent, found⟩ := exists_first_assigning assigned
  obtain ⟨first, member, same, isFirst⟩ := @firstOccurrence?_split _ _ after _ absent found
  rw [← isBody] at isFirst
  have new : ¬ isBound (entryTable table definition.name definition.params) x := by
    rw [isBound_entryTable, not_or]
    exact ⟨noParam, free⟩
  by_cases own : x ∈ assignedBy value
  · have noFront : x ∉ (declarations (entryTable table definition.name definition.params)
        definition.body).map Declaration.name := by
      intro inFront
      obtain ⟨_, other, isOther, nested⟩ := mem_declarations_iff.mp inFront
      rw [isFirst] at isOther
      cases isOther
      exact not_nested_of_mem_stmtOccurrences member (List.ne_nil_of_mem own) nested
    have unbound : ¬ isBound (bodyTable table definition) x := by
      rw [isBound_bodyTable, not_or, not_or]
      exact ⟨noFront, noParam, free⟩
    rw [isBody] at bodyTraced
    obtain ⟨earlier, middle, later, rfl, _, valueTraced, _⟩ := traces_split bodyTraced
    have unboundHere : ¬ isBound (before.foldl bindStmt (bodyTable table definition)) x :=
      not_isBound_foldl unbound fun other otherMember bound =>
        kept ⟨before, value, after, isBody, absent, own, .inr ⟨other, otherMember, bound⟩⟩
    have spoken : ¬ isSilent value := fun silent =>
      kept ⟨before, value, after, isBody, absent, own, .inl silent⟩
    have declares := (bound_or_declared valueTraced spoken own).resolve_left unboundHere
    refine ⟨head, _, named, ?_, List.mem_map_of_mem own⟩
    exact List.mem_append_right _ (List.mem_append_right _ (List.mem_append_left _ declares))
  · have nested : first.nested := (nested_or_mem_assignedBy member).resolve_right (by rwa [same])
    have inFront := mem_declarations_iff.mpr ⟨new, first, isFirst, nested⟩
    obtain ⟨declaration, declarationMember, rfl⟩ := List.mem_map.mp inFront
    refine ⟨head, [identName declaration.name], named, ?_, List.mem_singleton_self _⟩
    exact List.mem_append_left _ (List.mem_map.mpr ⟨declaration, declarationMember, rfl⟩)

/-- What a piece declares outside of the functions in it is assigned to there, and new. -/
theorem assigned_of_own_declaration {piece : Piece} {all texts : List String} {inner : List Stream}
    (traced : Traces piece table around events) (member : .declares inner texts ∈ events)
    (own : ¬ InFunction around inner) (apart : WrittenApart all)
    (among : piece.statements.flatMap assignedBy ⊆ all) (xMember : x ∈ all)
    (declared : identName x ∈ texts) (undefined : x ∉ piece.statements.flatMap definedBy) :
    x ∈ piece.statements.flatMap assignedBy ∧ ¬ isBound table x := by
  cases declaresNew_of_traces traced member with
  | inside inFunction _ => exact absurd inFunction own
  | own names _ assigned new =>
    obtain ⟨y, yMember, same⟩ := List.mem_map.mp declared
    obtain rfl := apart y (among (assigned yMember)) x xMember same
    exact ⟨assigned yMember, fun bound => undefined (new y yMember bound)⟩

theorem isBound_foldl_of_mem {before : List Stmt} {earlier : Stmt} (member : earlier ∈ before)
    (bound : x ∈ boundBy earlier) (undefined : ∀ other ∈ before, x ∉ definedBy other) :
    isBound (before.foldl bindStmt table) x := by
  induction before generalizing table with
  | nil => cases member
  | cons first rest inductionHypothesis =>
    rw [List.forall_mem_cons] at undefined
    rw [List.foldl_cons]
    rcases List.mem_cons.mp member with rfl | inRest
    · have simple := not_isDefinition_of_mem_boundBy bound
      exact isBound_foldl ((isBound_bindStmt simple).mpr (.inl bound)) undefined.2
    · exact inductionHypothesis inRest undefined.2

theorem not_declares_of_isSilent {value : Stmt} {texts : List String} {inner : List Stream}
    (traced : Traces (.stmt value) table around events) (silent : isSilent value) :
    .declares inner texts ∉ events := by
  cases traced with
  | settled _ plain =>
    intro member
    obtain ⟨_, impossible, _⟩ := plain _ member
    cases impossible
  | fresh spoken _ _ _ => exact absurd silent spoken
  | silent _ => exact List.not_mem_nil
  | ifElse => cases silent
  | ifFurther => cases silent
  | whileLoop => cases silent
  | forLoop => cases silent
  | functionDef => cases silent
  | asyncFunctionDef => cases silent

/-- What a block declares outside of the functions in it is not skipped. -/
theorem not_skips_of_own_declaration {body : List Stmt} {all texts : List String}
    {inner : List Stream} (traced : Traces (.block body) table around events)
    (member : .declares inner texts ∈ events) (own : ¬ InFunction around inner)
    (apart : WrittenApart all) (among : (withinAll body).flatMap assignedBy ⊆ all)
    (xMember : x ∈ all) (declared : identName x ∈ texts)
    (undefined : x ∉ (withinAll body).flatMap definedBy) : ¬ Skips body x := by
  rintro ⟨before, value, after, rfl, absent, assigned, skipped⟩
  have bound : x ∈ boundBy value := assignedBy_subset_boundBy value assigned
  obtain ⟨first, middle, last, rfl, beforeTraced, valueTraced, afterTraced⟩ := traces_split traced
  rw [withinAll_append, withinAll, List.flatMap_append, List.flatMap_append] at among undefined
  obtain ⟨beforeAmong, laterAmong⟩ := List.append_subset.mp among
  obtain ⟨valueAmong, afterAmong⟩ := List.append_subset.mp laterAmong
  simp only [List.mem_append, not_or] at undefined member
  obtain ⟨beforeUndefined, valueUndefined, afterUndefined⟩ := undefined
  rcases member with inBefore | inValue | inAfter
  · exact absent (assigned_of_own_declaration beforeTraced inBefore own apart beforeAmong xMember
      declared beforeUndefined).1
  · rcases skipped with silent | ⟨earlier, earlierMember, boundBefore⟩
    · exact not_declares_of_isSilent valueTraced silent inValue
    · refine (assigned_of_own_declaration valueTraced inValue own apart valueAmong xMember declared
        valueUndefined).2 (isBound_foldl_of_mem earlierMember boundBefore ?_)
      exact fun other otherMember defined => beforeUndefined
        (List.mem_flatMap.mpr ⟨other, mem_withinAll_of_mem otherMember, defined⟩)
  · refine (assigned_of_own_declaration afterTraced inAfter own apart afterAmong xMember declared
      afterUndefined).2 ?_
    exact (isBound_bindStmt (not_isDefinition_of_mem_boundBy bound)).mpr (.inl bound)

/-- What a function declares itself is not known before and not skipped. -/
theorem new_of_own_declaration {definition : FunctionDef} {texts : List String}
    {inner : List Stream} (traced : Traces (.function definition) table around events)
    (member : .declares inner texts ∈ events)
    (own : ∀ head, .keyword "fn" ∈ head → ¬ InFunction (head :: around) inner)
    (apart : WrittenApart (functionNames definition))
    (assigned : x ∈ (withinAll definition.body).flatMap assignedBy)
    (undefined : x ∉ (withinAll definition.body).flatMap definedBy)
    (declared : identName x ∈ texts) :
    ¬ isBound table x ∧ ¬ Skips definition.body x := by
  have among := @assigned_subset_functionNames definition
  cases traced with
  | @function _ _ _ head bodyEvents named bodyTraced =>
  rcases List.mem_append.mp member with inFront | inBody
  · obtain ⟨declaration, declarationMember, equal⟩ := List.mem_map.mp inFront
    cases equal
    have isFront : declaration.name ∈ (declarations (entryTable table definition.name
        definition.params) definition.body).map Declaration.name :=
      List.mem_map_of_mem declarationMember
    have same := apart x (among assigned) declaration.name
      (among (mem_assigned_of_mem_declarations isFront).1) (List.mem_singleton.mp declared)
    rw [← same] at isFront
    obtain ⟨free, first, found, nested⟩ := mem_declarations_iff.mp isFront
    rw [isBound_entryTable, not_or] at free
    exact ⟨free.2, fun skips => skips.not_nested found nested⟩
  · have new := assigned_of_own_declaration bodyTraced inBody (own head named) apart among
      (among assigned) declared undefined
    exact ⟨fun bound => new.2 (isBound_bodyTable.mpr (.inr (.inr bound))),
      not_skips_of_own_declaration bodyTraced inBody (own head named) apart among (among assigned)
        declared undefined⟩

/-! ### Modules -/

theorem isFunctionHead_of_mem {head : Stream} (named : .keyword "fn" ∈ head) :
    isFunctionHead head :=
  List.any_eq_true.mpr ⟨_, named, rfl⟩

theorem exists_part_of_module {source : Module} {stream : Stream}
    (lowered : (module options table source).2 = .ok stream) {item : Item}
    (member : item ∈ items table source) :
    ∃ part, item.Lowered options part ∧ PartOf part stream := by
  obtain ⟨streams, itemsLowered, rfl⟩ := module_of_ok lowered
  obtain ⟨part, partMember, partLowered⟩ := exists_stream_of_mem itemsLowered member
  refine ⟨part, partLowered, .right ?_⟩
  obtain ⟨before, after, rfl⟩ := List.append_of_mem partMember
  rw [List.flatten_append, List.flatten_cons]
  exact (PartOf.refl part).left.right

/-- Whether a function inside another one declares a name that it assigns to hangs on the functions
around it: it does so if none of them has a variable or parameter of that name where the function is
defined, and the name is not skipped; and if no function inside it has that name, only then. -/
theorem nested_function_declares_iff_new {source : Module} {stream : Stream}
    (lowered : (module options table source).2 = .ok stream) {outer nested : Item}
    (outerMember : outer ∈ items table source) (nestedMember : nested ∈ outer.nested) :
    ∃ part, nested.Lowered options part ∧ PartOf part stream ∧
      ∀ x ∈ (withinAll nested.definition.body).flatMap assignedBy,
        x ∉ nested.definition.params.map ParamOf.name →
          (¬ isBound nested.table x ∧ ¬ Skips nested.definition.body x → DeclaresItself part x) ∧
          (WrittenApart (functionNames nested.definition) →
            x ∉ (withinAll nested.definition.body).flatMap definedBy →
            DeclaresItself part x →
              ¬ isBound nested.table x ∧ ¬ Skips nested.definition.body x) := by
  obtain ⟨outerPart, outerLowered, outerIsPart⟩ := exists_part_of_module lowered outerMember
  obtain ⟨part, partLowered, isPart⟩ := exists_part_of_emits
    (emits_of_function outer.definition outer.context outer.table outerPart outerLowered)
    nested nestedMember
  have traced := traces_of_emits
    (emits_of_function nested.definition nested.context nested.table part partLowered)
    ⟨[], []⟩ rfl
  refine ⟨part, partLowered, isPart.trans outerIsPart, fun x assigned noParam => ⟨?_, ?_⟩⟩
  · rintro ⟨free, kept⟩
    obtain ⟨head, names, named, declares, found⟩ :=
      exists_own_declaration traced assigned noParam free kept
    refine ⟨[head], names, declares, ?_, found⟩
    rw [List.countP_singleton, if_pos (isFunctionHead_of_mem named)]
  · rintro apart undefined ⟨inner, names, declares, counted, found⟩
    refine new_of_own_declaration traced declares ?_ apart assigned undefined found
    rintro head named ⟨opened, rfl, other, otherMember, otherNamed⟩
    -- A function inside has its head among those that are opened, so two heads would count.
    have atLeast : 0 < opened.countP isFunctionHead :=
      List.countP_pos_iff.mpr ⟨other, otherMember, isFunctionHead_of_mem otherNamed⟩
    rw [List.countP_append, List.countP_singleton, if_pos (isFunctionHead_of_mem named)] at counted
    omega

/-- A function that assigns to a variable of the function around it does not declare it, but a name
of its own it does. -/
theorem nested_function_takes_over_variable :
    let inner : FunctionDef :=
      { FunctionOf.empty "g" with
        body := [.assign [.name "x"] (.constant (.int "2")),
          .assign [.name "y"] (.constant (.int "3"))] }
    let outer : FunctionDef :=
      { FunctionOf.empty "f" with
        body := [.assign [.name "x"] (.constant (.int "1")), .functionDef inner] }
    let source : Module := ⟨[.functionDef outer]⟩
    ∃ stream part context table, (module {} Table.new source).2 = .ok stream ∧
      PartOf part stream ∧ function {} inner context table = .ok part ∧
        ¬ DeclaresItself part "x" ∧ DeclaresItself part "y" := by
  intro inner outer source
  obtain ⟨stream, lowered⟩ : ∃ stream, (module {} Table.new source).2 = .ok stream := ⟨_, rfl⟩
  let outerItem : Item := ⟨outer, .module, registerAll Table.new source.body⟩
  let nested : Item := ⟨inner, .module,
    bindStmt (bodyTable outerItem.table outer) (.assign [.name "x"] (.constant (.int "1")))⟩
  obtain ⟨part, partLowered, isPart, all⟩ :=
    @nested_function_declares_iff_new {} Table.new source stream lowered outerItem nested
      (@List.mem_cons_self _ outerItem []) (@List.mem_cons_self _ nested [])
  refine ⟨stream, part, nested.context, nested.table, lowered, isPart, partLowered, ?_, ?_⟩
  · intro declares
    have new := (all "x" (by decide) (by decide)).2 (by decide) (by decide) declares
    exact new.1 (by decide)
  · exact (all "y" (by decide) (by decide)).1 ⟨by decide, not_skips (by decide) (by decide)⟩

end Oxide.Lower
