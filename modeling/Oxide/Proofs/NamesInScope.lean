/-
This file proves which names are visible where a function reads them. A parameter is visible
everywhere, the target of a loop inside the loop, and a name that is assigned to behind its first
assignment, or everywhere if that one stands in a block. But the target of a loop is not declared in
front of the body as other names of blocks are, so it is not visible behind its loop.
-/

import Oxide.Proofs.Sites

namespace Oxide.Lower

open Scopes

/-! ### Names that declarations make visible -/

/-- Whether the first statement that assigns to a name stands in a block. -/
def Hoisted (body : List Stmt) (x : String) : Prop :=
  ∃ first, firstOccurrence? x (blockOccurrences false body) = some first ∧ first.nested

theorem Hoisted.assigned {body : List Stmt} {x : String} (hoisted : Hoisted body x) :
    x ∈ (withinAll body).flatMap assignedBy := by
  obtain ⟨first, found, _⟩ := hoisted
  obtain ⟨member, same⟩ := mem_of_firstOccurrence? found
  rw [← map_name_blockOccurrences false]
  exact List.mem_map.mpr ⟨first, member, same⟩

/-- Whether a name is a parameter, declared in front of the body, or declared by one of the
statements that assign to the given names. -/
def Known (definition : FunctionDef) (assigned : List String) (x : String) : Prop :=
  x ∈ definition.params.map ParamOf.name ∨ Hoisted definition.body x ∨
    x ∈ assigned ∧ ¬ Skips definition.body x

theorem Known.mono {definition : FunctionDef} {assigned more : List String} {x : String}
    (known : Known definition assigned x) (subset : assigned ⊆ more) : Known definition more x :=
  known.imp_right (Or.imp_right (And.imp_left fun member => subset member))

theorem isBound_or_mem_boundBy {table : Table} {before : List Stmt} {x : String}
    (bound : isBound (before.foldl bindStmt table) x) :
    isBound table x ∨ ∃ earlier ∈ before, x ∈ boundBy earlier := by
  by_contra neither
  rw [not_or] at neither
  exact not_isBound_foldl neither.1
    (fun earlier member boundHere => neither.2 ⟨earlier, member, boundHere⟩) bound

theorem not_mem_definedBy {value : Stmt} (simple : ¬ isDefinition value) (x : String) :
    x ∉ definedBy value := by
  unfold definedBy
  cases found : value.function? with
  | none => exact List.not_mem_nil
  | some definition => simp [isDefinition, found] at simple

/-- A statement that assigns has no blocks. -/
theorem within_of_assignedBy {value : Stmt} {x : String} (assigned : x ∈ assignedBy value) :
    within value = [value] := by
  cases value with
  | assign targets _ => rfl
  | annAssign target hint _ => rfl
  | _ => cases assigned

/-! ### One statement of a body -/

section

variable {definition : FunctionDef} {table : Table} {before rest : List Stmt} {first : Stmt}
  {x : String}

theorem ready_foldl (ready : Ready table (before ++ rest))
    (flat : ∀ value ∈ before, ¬ isDefinition value) : Ready (before.foldl bindStmt table) rest := by
  induction before generalizing table with
  | nil => exact ready
  | cons head later inductionHypothesis =>
    rw [List.forall_mem_cons] at flat
    exact inductionHypothesis (ready.rest flat.1) flat.2

theorem ready_behind (isBody : definition.body = before ++ rest)
    (flat : ∀ value ∈ before, ¬ isDefinition value) :
    Ready (before.foldl bindStmt (bodyTable table definition)) rest :=
  ready_foldl (isBody ▸ ready_bodyTable table definition) flat

/-- What is new to a statement of a body and declared in it is declared by it directly. -/
theorem mem_spokenBy_of_new (ready : Ready table (first :: rest))
    (spoken : x ∈ (within first).flatMap spokenBy) (new : ¬ isBound table x) :
    x ∈ spokenBy first := by
  obtain ⟨value, member, spoken⟩ := List.mem_flatMap.mp spoken
  have assigned : x ∈ (within first).flatMap assignedBy :=
    List.mem_flatMap.mpr ⟨value, member, (mem_spokenBy.mp spoken).2⟩
  have own := (ready.mem_assignedBy_or_isBound assigned).resolve_right new
  rw [within_of_assignedBy own, List.mem_singleton] at member
  rwa [← member]

/-- What is declared because it is new is not skipped. -/
theorem not_skips_of_new (isBody : definition.body = before ++ first :: rest)
    (flat : ∀ value ∈ before, ¬ isDefinition value) (spoken : x ∈ spokenBy first)
    (new : ¬ isBound (before.foldl bindStmt table) x) : ¬ Skips definition.body x := by
  have unbound {earlier : Stmt} (member : earlier ∈ before) : x ∉ boundBy earlier := fun bound =>
    new (isBound_foldl_of_mem member bound fun other otherMember =>
      not_mem_definedBy (flat other otherMember) x)
  obtain ⟨loud, assigned⟩ := mem_spokenBy.mp spoken
  rintro ⟨earlier, value, later, isSplit, absent, assignedFirst, skipped⟩
  rw [isBody] at isSplit
  rcases split_append isSplit with ⟨between, rfl⟩ | ⟨between, rfl, same⟩
  · exact unbound (List.mem_append_right _ List.mem_cons_self)
      (assignedBy_subset_boundBy value assignedFirst)
  · obtain _ | ⟨head, between⟩ := between
    · obtain ⟨rfl, _⟩ := List.cons.inj same
      rw [List.append_nil] at skipped
      rcases skipped with silent | ⟨other, member, bound⟩
      · exact loud silent
      · exact unbound member bound
    · obtain ⟨rfl, _⟩ := List.cons.inj same
      refine absent (List.mem_flatMap.mpr ⟨first, ?_, assigned⟩)
      rw [withinAll_append, withinAll]
      exact List.mem_append_right _ (List.mem_append_left _ (mem_within_self first))

/-- What is known behind a statement of a body is known before it, or declared by it. -/
theorem known_or_new (free : ∀ x, ¬ isBound table x)
    (isBody : definition.body = before ++ first :: rest)
    (known : Known definition
      ((withinAll before).flatMap assignedBy ++ (within first).flatMap assignedBy) x) :
    Known definition ((withinAll before).flatMap assignedBy) x ∨
      x ∈ spokenBy first ∧ ¬ isBound (before.foldl bindStmt (bodyTable table definition)) x := by
  rcases known with isParam | hoisted | ⟨assigned, kept⟩
  · exact .inl (.inl isParam)
  · exact .inl (.inr (.inl hoisted))
  by_cases absent : x ∈ (withinAll before).flatMap assignedBy
  · exact .inl (.inr (.inr ⟨absent, kept⟩))
  have assigned := (List.mem_append.mp assigned).resolve_left absent
  obtain ⟨occurrence, member, same, isFirst⟩ := @firstOccurrence?_split _ _ rest _ absent assigned
  rw [← isBody] at isFirst
  rcases nested_or_mem_assignedBy member with nested | own
  · exact .inl (.inr (.inl ⟨occurrence, isFirst, nested⟩))
  rw [same] at own
  have skips (skipped : isSilent first ∨ ∃ earlier ∈ before, x ∈ boundBy earlier) :
      Skips definition.body x := ⟨before, first, rest, isBody, absent, own, skipped⟩
  by_cases bound : isBound (before.foldl bindStmt (bodyTable table definition)) x
  · rcases isBound_or_mem_boundBy bound with bound | earlier
    · rcases isBound_bodyTable.mp bound with inFront | isParam | bound
      · exact .inl (.inr (.inl (mem_declarations_iff.mp inFront).2))
      · exact .inl (.inl isParam)
      · exact absurd bound (free x)
    · exact absurd (skips (.inr earlier)) kept
  · exact .inr ⟨mem_spokenBy.mpr ⟨fun silent => kept (skips (.inl silent)), own⟩, bound⟩

end

/-! ### Bodies -/

/-- The names that the statements of some sites assign to. -/
def assignedAt (sites : List Site) : List String :=
  sites.flatMap fun site => assignedBy site.value

/-- Whether the names that are visible at a site are the targets of the loops around it and the
names that are known behind the given assignments and those of the sites before it. -/
def ShowsKnown (definition : FunctionDef) (assigned : List String) (earlier : List Site)
    (site : Site) : Prop :=
  ∀ text, text ∈ site.visible ↔ ∃ x, identName x = text ∧
    (x ∈ site.loops ∨ Known definition (assigned ++ assignedAt earlier) x)

section

variable {definition : FunctionDef} {context : Context} {table : Table} {scopes : Scopes}
  {before rest : List Stmt} {first : Stmt} {stream : Stream} {sites : List Site}
  {added : List String}

theorem assignedAt_of_shown {loops : List String}
    (shown : Shown context table scopes loops (.stmt first) stream sites added) :
    assignedAt sites = (within first).flatMap assignedBy := by
  rw [← shown.map_value, List.flatMap_map]
  rfl

/-- The sites of a statement of the body show what is known. -/
theorem showsKnown_stmt (free : ∀ x, ¬ isBound table x)
    (isBody : definition.body = before ++ first :: rest)
    (flat : ∀ value ∈ before, ¬ isDefinition value)
    (exact : ∀ text, text ∈ scopes.visible ↔ ∃ x, identName x = text ∧
      Known definition ((withinAll before).flatMap assignedBy) x)
    (shown : Shown context (before.foldl bindStmt (bodyTable table definition)) scopes []
      (.stmt first) stream sites added) :
    EachBehind (ShowsKnown definition ((withinAll before).flatMap assignedBy)) sites := by
  intro earlier site later split text
  obtain ⟨kept, looped, only⟩ := shown.framed earlier site later split
  -- A statement that declares something itself has one site only, with none before it.
  have alone {x : String} (spoken : x ∈ spokenBy first) : earlier = [] := by
    have single := shown.map_value
    rw [within_of_assignedBy (mem_spokenBy.mp spoken).2, split] at single
    obtain _ | ⟨head, tail⟩ := earlier
    · rfl
    · simp at single
  have among {other : Site} (member : other ∈ earlier) : other.value ∈ within first := by
    rw [← shown.map_value, split]
    exact List.mem_map_of_mem (List.mem_append_left _ member)
  constructor
  · intro visible
    rcases only text visible with inBase | ⟨x, same, isLoop | ⟨⟨other, member, spoken⟩, new⟩⟩
    · obtain ⟨x, same, known⟩ := (exact text).mp inBase
      exact ⟨x, same, .inr (known.mono (List.subset_append_left _ _))⟩
    · exact ⟨x, same, .inl isLoop⟩
    · have own := mem_spokenBy_of_new (ready_behind isBody flat)
        (List.mem_flatMap.mpr ⟨other.value, among member, spoken⟩) new
      rw [alone own] at member
      cases member
  · rintro ⟨x, rfl, isLoop | known⟩
    · exact looped x isLoop
    · have inFirst : assignedAt earlier ⊆ (within first).flatMap assignedBy := by
        rw [← assignedAt_of_shown shown, split, assignedAt, assignedAt, List.flatMap_append]
        exact List.subset_append_left _ _
      have behind := known.mono (List.append_subset.mpr
        ⟨List.subset_append_left _ _, List.subset_append_of_subset_right _ inFirst⟩)
      rcases known_or_new free isBody behind with before | ⟨spoken, _⟩
      · exact kept ((exact _).mpr ⟨x, rfl, before⟩)
      · rw [alone spoken, assignedAt, List.flatMap_nil, List.append_nil] at known
        exact kept ((exact _).mpr ⟨x, rfl, known⟩)

/-- Behind a statement of the body, what is known is visible. -/
theorem exact_behind_stmt (free : ∀ x, ¬ isBound table x)
    (isBody : definition.body = before ++ first :: rest)
    (flat : ∀ value ∈ before, ¬ isDefinition value) (nonempty : scopes.blocks ≠ [])
    (exact : ∀ text, text ∈ scopes.visible ↔ ∃ x, identName x = text ∧
      Known definition ((withinAll before).flatMap assignedBy) x)
    (shown : Shown context (before.foldl bindStmt (bodyTable table definition)) scopes []
      (.stmt first) stream sites added) (text : String) :
    text ∈ (declare (added.map identName) scopes.blocks).flatten ↔ ∃ x, identName x = text ∧
      Known definition ((withinAll (before ++ [first])).flatMap assignedBy) x := by
  rw [mem_flatten_declare nonempty, withinAll_append, withinAll, withinAll, List.append_nil,
    List.flatMap_append]
  constructor
  · rintro (isAdded | inBase)
    · obtain ⟨x, member, same⟩ := List.mem_map.mp isAdded
      obtain ⟨spoken, new⟩ := shown.new x member
      have own := mem_spokenBy_of_new (ready_behind isBody flat) spoken new
      have assigned : x ∈ (within first).flatMap assignedBy :=
        List.mem_flatMap.mpr ⟨first, mem_within_self first, (mem_spokenBy.mp own).2⟩
      exact ⟨x, same, .inr (.inr
        ⟨List.mem_append_right _ assigned, not_skips_of_new isBody flat own new⟩)⟩
    · obtain ⟨x, same, known⟩ := (exact text).mp inBase
      exact ⟨x, same, known.mono (List.subset_append_left _ _)⟩
  · rintro ⟨x, rfl, known⟩
    rcases known_or_new free isBody known with before | ⟨spoken, new⟩
    · exact .inr ((exact _).mpr ⟨x, rfl, before⟩)
    · exact .inl (List.mem_map_of_mem ((shown.declared x spoken).resolve_left new))

/-- The sites of a body show what is known. -/
theorem exists_sites_of_body {options : Options} (free : ∀ x, ¬ isBound table x)
    (isBody : definition.body = before ++ rest)
    (flat : ∀ value ∈ withinAll definition.body, ¬ isDefinition value)
    (emitted : Emits options (.block rest) context
      (before.foldl bindStmt (bodyTable table definition)) stream)
    (start : scopes.current = []) (nonempty : scopes.blocks ≠ [])
    (exact : ∀ text, text ∈ scopes.visible ↔ ∃ x, identName x = text ∧
      Known definition ((withinAll before).flatMap assignedBy) x) :
    ∃ sites, Cut context scopes stream.bare sites ∧
      sites.map Site.toStation = blockStations [] rest ∧
      EachBehind (ShowsKnown definition ((withinAll before).flatMap assignedBy)) sites := by
  induction rest generalizing before scopes stream with
  | nil =>
    cases emitted
    exact ⟨[], .done, rfl, .nil⟩
  | cons first rest inductionHypothesis =>
    cases emitted with
    | @blockCons _ _ _ _ single later firstEmitted restEmitted =>
    have flatBefore : ∀ value ∈ before, ¬ isDefinition value := fun value member =>
      flat value (isBody ▸ mem_withinAll_of_mem (List.mem_append_left _ member))
    have flatFirst : ∀ value ∈ within first, ¬ isDefinition value := fun value member => by
      refine flat value ?_
      rw [isBody, withinAll_append, withinAll]
      exact List.mem_append_right _ (List.mem_append_left _ member)
    obtain ⟨sites, added, shown⟩ := shown_of_emits firstEmitted flatFirst
      (begins_of_eq_nil start _) (List.forall_mem_nil _)
    have ended : (scopes.walk single.bare).step (.punct ";") =
        ⟨declare (added.map identName) scopes.blocks, []⟩ := shown.ends
    have isLater : definition.body = before ++ [first] ++ rest := by
      rw [isBody, List.append_assoc, List.singleton_append]
    have laterEmitted : Emits options (.block rest) context
        ((before ++ [first]).foldl bindStmt (bodyTable table definition)) later := by
      rw [List.foldl_append]
      exact restEmitted
    obtain ⟨laterSites, laterCut, laterStations, laterShow⟩ :=
      @inductionHypothesis ⟨declare (added.map identName) scopes.blocks, []⟩ (before ++ [first])
        later isLater laterEmitted rfl (declare_ne_nil nonempty)
        (exact_behind_stmt free isBody flatBefore nonempty exact shown)
    refine ⟨sites ++ laterSites, ?_, ?_,
      (showsKnown_stmt free isBody flatBefore exact shown).append ?_⟩
    · rw [Stream.bare_append, Stream.bare_punct, List.append_assoc]
      exact shown.cut.append (.between (by decide) (ended ▸ laterCut))
    · rw [List.map_append, laterStations, show sites.map _ = _ from shown.stations]
      rfl
    · refine laterShow.mono fun earlier site _ shows => ?_
      unfold ShowsKnown at shows ⊢
      rwa [withinAll_append, withinAll, withinAll, List.append_nil, List.flatMap_append,
        ← assignedAt_of_shown shown, List.append_assoc, assignedAt, assignedAt,
        ← List.flatMap_append] at shows

end

/-! ### Functions -/

/-- The declarations in front of a body make their names visible. -/
theorem walk_front {options : Options} (front : List Declaration) (blocks : List (List String)) :
    Scopes.walk ⟨blocks, []⟩ (Stream.bare (front.flatMap (Declaration.tokens options))) =
      ⟨declare ((front.map Declaration.name).reverse.map identName) blocks, []⟩ := by
  induction front generalizing blocks with
  | nil =>
    rw [List.map_nil, List.reverse_nil, List.map_nil, declare_nil]
    rfl
  | cons declaration later inductionHypothesis =>
    obtain ⟨type?, spelled⟩ := bare_declaration options declaration
    have undivided : ∀ token ∈ [.keyword "let", .keyword "mut", .ident declaration.name] ++
        typing type?, ¬ token.divides :=
      List.forall_mem_cons.mpr ⟨by decide, (calm_newVariable declaration.name type?).not_divides⟩
    have declared : Scopes.walk ⟨blocks, []⟩ (declaration.tokens options).bare =
        ⟨declare [identName declaration.name] blocks, []⟩ := by
      rw [spelled, walk_append, walk_of_not_divides undivided,
        ← declaredNames_typing declaration.name type?]
      rfl
    rw [List.flatMap_cons, Stream.bare_append, walk_append, declared, inductionHypothesis,
      declare_declare, List.map_cons, List.reverse_cons, List.map_append]
    rfl

theorem mem_front_iff {definition : FunctionDef} {table : Table} {x : String}
    (free : ∀ x, ¬ isBound table x) :
    x ∈ (declarations (entryTable table definition.name definition.params) definition.body).map
        Declaration.name ↔
      x ∉ definition.params.map ParamOf.name ∧ Hoisted definition.body x := by
  rw [mem_declarations_iff, isBound_entryTable, or_iff_left (free x)]
  rfl

/-- The scopes at the start of a body: behind the parameters come the names declared in front. -/
def bodyScopes (table : Table) (definition : FunctionDef) : Scopes :=
  ⟨declare (((declarations (entryTable table definition.name definition.params)
      definition.body).map Declaration.name).reverse.map identName)
    [(definition.params.map ParamOf.name).map identName], []⟩

theorem walk_opened {options : Options} {context : Context} {definition : FunctionDef}
    {table : Table} {clause output : Stream}
    (clauseLowered : params options definition.params = .ok clause)
    (outputLowered : result options definition.returns = .ok output) :
    Scopes.walk ⟨[], []⟩ ((head context options definition clause output).bare ++
      .punct openBrace :: (frontTokens options table definition).bare) =
        bodyScopes table definition := by
  have calm := @calm_head options context definition _ _ clauseLowered outputLowered
  have headed := @headNames_function options context definition _ _ clauseLowered outputLowered
  have opened := @step_openBrace ⟨[], (head context options definition clause output).bare⟩ _ headed
  rw [walk_append, walk_of_not_divides calm.not_divides, List.nil_append]
  exact (congrArg (Scopes.walk · _) opened).trans (walk_front _ _)

theorem mem_visible_bodyScopes {definition : FunctionDef} {table : Table}
    (free : ∀ x, ¬ isBound table x) (text : String) :
    text ∈ (bodyScopes table definition).visible ↔
      ∃ x, identName x = text ∧ Known definition [] x := by
  rw [visible, bodyScopes, mem_flatten_declare (List.cons_ne_nil _ _), List.flatten_singleton,
    List.mem_map, List.mem_map]
  constructor
  · rintro (⟨x, inFront, same⟩ | ⟨x, isParam, same⟩)
    · rw [List.mem_reverse, mem_front_iff free] at inFront
      exact ⟨x, same, .inr (.inl inFront.2)⟩
    · exact ⟨x, same, .inl isParam⟩
  · rintro ⟨x, same, known⟩
    by_cases isParam : x ∈ definition.params.map ParamOf.name
    · exact .inr ⟨x, isParam, same⟩
    · rcases known with isParam' | hoisted | ⟨nowhere, _⟩
      · exact absurd isParam' isParam
      · refine .inl ⟨x, ?_, same⟩
        rw [List.mem_reverse, mem_front_iff free]
        exact ⟨isParam, hoisted⟩
      · cases nowhere

/-- The names that are visible where a function reads something are exactly its parameters, the
targets of the loops around, the names whose first assignment stands in a block, and those that are
assigned to before and not skipped. So the target of a loop that is over is not among them. -/
theorem function_visible_iff {options : Options} {definition : FunctionDef} {context : Context}
    {table : Table} {stream : Stream}
    (lowered : function options definition context table = .ok stream)
    (flat : ∀ value ∈ withinAll definition.body, ¬ isDefinition value)
    (free : ∀ x, ¬ isBound table x) :
    ∃ opened inner sites, stream.bare = opened ++ (inner ++ [.punct closeBrace]) ∧
      Cut context (Scopes.walk ⟨[], []⟩ opened) inner sites ∧
      sites.map Site.toStation = blockStations [] definition.body ∧
      ∀ before site after, sites = before ++ site :: after → ∀ text, text ∈ site.visible ↔
        ∃ x, identName x = text ∧ (x ∈ site.loops ∨ Known definition (assignedAt before) x) := by
  cases emits_of_function definition context table stream lowered with
  | @function _ _ _ clause output inner _ clauseLowered outputLowered bodyEmitted =>
  obtain ⟨sites, cut, stations, shows⟩ := @exists_sites_of_body definition context table
    (bodyScopes table definition) [] definition.body inner options free rfl flat bodyEmitted rfl
    (declare_ne_nil (List.cons_ne_nil _ _)) (mem_visible_bodyScopes free)
  have walked := @walk_opened options context definition table _ _ clauseLowered outputLowered
  refine ⟨_, inner.bare, sites, ?_, walked ▸ cut, stations, shows⟩
  rw [bare_braced, Stream.bare_append, List.append_assoc, List.append_assoc]
  rfl

/-- A function whose loop assigns its target to a name: behind the loop that name is visible, but
the target is not. -/
theorem function_visible_iff_behind_loop :
    let body : List Stmt :=
      [.forLoop (.name "i") (.name "xs") [.assign [.name "last"] (.name "i")] [],
        .assign [.name "total"] (.name "last"), .ret (.name "i")]
    let definition : FunctionDef :=
      { FunctionOf.empty "f" with
        params := [⟨"xs", .positional, .name "list", .absent⟩]
        body }
    ∃ stream opened inner before site, function {} definition .module Table.new = .ok stream ∧
      (∀ x, ¬ isBound Table.new x) ∧ stream.bare = opened ++ (inner ++ [.punct closeBrace]) ∧
      Cut .module (Scopes.walk ⟨[], []⟩ opened) inner (before ++ [site]) ∧
      site.value = .ret (.name "i") ∧ "last" ∈ site.visible ∧ "total" ∈ site.visible ∧
      "i" ∉ site.visible := by
  intro body definition
  obtain ⟨stream, lowered⟩ : ∃ stream, function {} definition .module Table.new = .ok stream :=
    ⟨_, rfl⟩
  have free : ∀ x, ¬ isBound Table.new x := fun x => Bool.false_ne_true
  obtain ⟨opened, inner, sites, spelled, cut, stations, shows⟩ :=
    function_visible_iff lowered (by decide) free
  obtain ⟨loop, _, rfl, isLoop, stations⟩ := List.map_eq_cons_iff.mp stations
  obtain ⟨inLoop, _, rfl, isInLoop, stations⟩ := List.map_eq_cons_iff.mp stations
  obtain ⟨behind, _, rfl, isBehind, stations⟩ := List.map_eq_cons_iff.mp stations
  obtain ⟨last, _, rfl, isLast, stations⟩ := List.map_eq_cons_iff.mp stations
  obtain rfl := List.map_eq_nil_iff.mp stations
  have shown := shows [loop, inLoop, behind] last [] rfl
  have assigned : assignedAt [loop, inLoop, behind] = ["last", "total"] := by
    simp only [assignedAt, List.flatMap_cons, isLoop, isInLoop, isBehind]
    rfl
  rw [isLast, assigned] at shown
  refine ⟨stream, opened, inner, [loop, inLoop, behind], last, lowered, free, spelled, cut,
    congrArg Station.value isLast, (shown "last").mpr ⟨"last", by decide, .inr (.inr (.inl ?_))⟩,
    (shown "total").mpr ⟨"total", by decide, .inr (.inr (.inr ⟨by decide, ?_⟩))⟩, ?_⟩
  · exact ⟨_, rfl, rfl⟩
  · exact not_skips (by decide) (by decide)
  · rw [shown]
    rintro ⟨x, same, around⟩
    have among : x ∈ ["xs", "last", "total"] := by
      rcases around with inNone | isParam | hoisted | ⟨isAssigned, _⟩
      · cases inNone
      · exact List.mem_append_left _ isParam
      · exact List.mem_cons_of_mem _ hoisted.assigned
      · exact List.mem_cons_of_mem _ isAssigned
    exact absurd same ((by decide : ∀ x ∈ ["xs", "last", "total"], identName x ≠ "i") x among)

end Oxide.Lower
