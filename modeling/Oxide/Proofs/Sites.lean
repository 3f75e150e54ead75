/-
This file cuts what statements and blocks emit into sites. The induction over everything that is
emitted keeps account of three things: the names that were visible before stay visible, the targets
of loops are visible inside them, and nothing else becomes visible than what a statement before has
declared because it was new. A simple statement is one site; a compound one is a site for its head
and the sites of its blocks, whose scopes are gone behind it.
-/

import Oxide.Proofs.Scopes

namespace Oxide.Lower

open Scopes

/-! ### What a stretch of the stream shows -/

/-- The names that a statement can declare; a hint for several names is not written. -/
def spokenBy (value : Stmt) : List String :=
  if isSilent value then [] else assignedBy value

theorem mem_spokenBy {value : Stmt} {x : String} :
    x ∈ spokenBy value ↔ ¬ isSilent value ∧ x ∈ assignedBy value := by
  unfold spokenBy
  split <;> simp [*]

/-- What is visible at a site, given what is visible before the stretch that it belongs to: that,
the targets of the loops around it, and at most the new names of the sites before it. -/
structure Frames (table : Table) (base : List String) (before : List Site) (site : Site) :
    Prop where
  kept : base ⊆ site.visible
  looped : ∀ x ∈ site.loops, identName x ∈ site.visible
  only : ∀ text ∈ site.visible, text ∈ base ∨ ∃ x, identName x = text ∧
    (x ∈ site.loops ∨ (∃ earlier ∈ before, x ∈ spokenBy earlier.value) ∧ ¬ isBound table x)

variable {context : Context} {table inner : Table} {scopes : Scopes} {loops : List String}

/-- What is known of a part of a stretch holds in the stretch, if what is visible before the part is
known there. -/
theorem Frames.mono {base wider : List String} {before more : List Site} {site : Site}
    (framed : Frames inner wider before site) (within : base ⊆ wider) (earlier : before ⊆ more)
    (bound : ∀ x, isBound table x → isBound inner x)
    (added : ∀ text ∈ wider, text ∈ base ∨ ∃ x, identName x = text ∧
      (x ∈ site.loops ∨ (∃ earlier ∈ more, x ∈ spokenBy earlier.value) ∧ ¬ isBound table x)) :
    Frames table base more site where
  kept := List.Subset.trans within framed.kept
  looped := framed.looped
  only text member := by
    rcases framed.only text member with inWider | ⟨x, same, looped | ⟨spoken, new⟩⟩
    · exact added text inWider
    · exact .inr ⟨x, same, .inl looped⟩
    · obtain ⟨other, otherMember, spoken⟩ := spoken
      exact .inr ⟨x, same, .inr ⟨⟨other, earlier otherMember, spoken⟩, fun isBound =>
        new (bound x isBound)⟩⟩

theorem Frames.behind {base : List String} {before more : List Site} {site : Site}
    (framed : Frames table base before site) (earlier : before ⊆ more) :
    Frames table base more site :=
  framed.mono (List.Subset.refl _) earlier (fun _ => id) fun _ => .inl

/-- A stretch of a stream that leaves the scopes as they were. -/
structure Enclosed (context : Context) (table : Table) (scopes : Scopes) (stream : Stream)
    (sites : List Site) : Prop where
  cut : Cut context scopes stream sites
  ends : scopes.walk stream = ⟨scopes.blocks, []⟩
  framed : EachBehind (Frames table scopes.visible) sites

/-- The stations of a piece. -/
def Piece.stations (loops : List String) : Piece → List Station
  | .stmt value => stmtStations loops value
  | .block body => blockStations loops body
  | .function _ => []

/-- The scopes where a piece is over: a statement ends with a semicolon. -/
def Piece.finish : Piece → Scopes → Scopes
  | .stmt _, scopes => scopes.step (.punct ";")
  | _, scopes => scopes

/-- The names that a piece has to declare itself if they are new. -/
def Piece.spoken : Piece → List String
  | .stmt value => spokenBy value
  | _ => []

/-- What a piece shows in a stream: its sites, and the names that it adds to the innermost scope. -/
structure Shown (context : Context) (table : Table) (scopes : Scopes) (loops : List String)
    (piece : Piece) (stream : Stream) (sites : List Site) (added : List String) : Prop where
  cut : Cut context scopes stream sites
  stations : sites.map Site.toStation = piece.stations loops
  ends : piece.finish (scopes.walk stream) = ⟨declare (added.map identName) scopes.blocks, []⟩
  framed : EachBehind (Frames table scopes.visible) sites
  new : ∀ x ∈ added, x ∈ piece.statements.flatMap spokenBy ∧ ¬ isBound table x
  declared : ∀ x ∈ piece.spoken, isBound table x ∨ x ∈ added

/-! ### Simple statements -/

theorem frames_self {value : Stmt} {own : Stream}
    (looped : ∀ x ∈ loops, identName x ∈ scopes.visible) :
    Frames table scopes.visible [] ⟨⟨value, loops⟩, own, scopes.visible⟩ where
  kept := List.Subset.refl _
  looped := looped
  only _ := .inl

/-- A statement without blocks is one site. -/
theorem shown_simple {value : Stmt} {own : Stream} {added : List String}
    (single : stmtStations loops value = [⟨value, loops⟩]) (start : scopes.current = [])
    (looped : ∀ x ∈ loops, identName x ∈ scopes.visible)
    (undivided : ∀ token ∈ own, ¬ token.divides) (written : Written context value own)
    (names : letNames own = added.map identName)
    (new : ∀ x ∈ added, x ∈ spokenBy value ∧ ¬ isBound table x)
    (declared : ∀ x ∈ spokenBy value, isBound table x ∨ x ∈ added) :
    Shown context table scopes loops (.stmt value) own
      [⟨⟨value, loops⟩, own, scopes.visible⟩] added where
  cut := by
    have cut : Cut context scopes (own ++ []) [⟨⟨value, loops⟩, own, scopes.visible⟩] :=
      .site loops undivided written .done
    rwa [List.append_nil] at cut
  stations := single.symm
  ends := by
    rw [walk_of_not_divides undivided, start, List.nil_append, ← names]
    rfl
  framed := .cons (frames_self looped) .nil
  new x member := by
    refine ⟨List.mem_flatMap.mpr ⟨value, mem_within_self value, (new x member).1⟩, (new x member).2⟩
  declared := declared

/-- A statement that is one calm stream declares nothing. -/
theorem shown_calm {value : Stmt} {own : Stream}
    (single : stmtStations loops value = [⟨value, loops⟩]) (start : scopes.current = [])
    (looped : ∀ x ∈ loops, identName x ∈ scopes.visible) (calm : Calm own)
    (written : Written context value own) (known : ∀ x ∈ spokenBy value, isBound table x) :
    ∃ sites added, Shown context table scopes loops (.stmt value) own sites added :=
  ⟨_, [], shown_simple single start looped calm.not_divides written (letNames_of_calm calm)
    (List.forall_mem_nil _) fun x member => .inl (known x member)⟩

/-- A calm statement that reads nothing and names nothing is a site of its own. -/
theorem shown_silent {value : Stmt} {own : Stream}
    (single : stmtStations loops value = [⟨value, loops⟩]) (start : scopes.current = [])
    (looped : ∀ x ∈ loops, identName x ∈ scopes.visible) (calm : Calm own)
    (noReads : readBy value = []) (noNames : spokenBy value = []) :
    ∃ sites added, Shown context table scopes loops (.stmt value) own sites added := by
  refine shown_calm single start looped calm ?_ ?_
  · rw [Written, noReads]
    exact List.forall_mem_nil _
  · rw [noNames]
    exact List.forall_mem_nil _

theorem calm_newVariable (id : String) (type? : Option Ty) :
    Calm (.keyword "mut" :: .ident id :: typing type?) :=
  (Phrase.append (.single (by decide)) (.append (.ident id) (phrase_typing type?))).calm

/-- A place that is assigned to is declared, or all its names are bound. -/
theorem shown_assign {value : Stmt} {place : Expr} {type? : Option Ty} {target stream : Stream}
    (single : stmtStations loops value = [⟨value, loops⟩]) (start : scopes.current = [])
    (looped : ∀ x ∈ loops, identName x ∈ scopes.visible) (spoken : ¬ isSilent value)
    (assigned : assignedBy value = targetNames place)
    (placed : Place context table type? place target) (phrase : Phrase stream)
    (written : Written context value (target.bare ++ .punct "=" :: stream)) :
    ∃ sites added, Shown context table scopes loops (.stmt value)
      (target.bare ++ .punct "=" :: stream) sites added := by
  have spokenBy_eq : spokenBy value = targetNames place := by
    rw [spokenBy, if_neg spoken, assigned]
  have divided {front : Stream} (calm : Calm front) :
      ∀ token ∈ front ++ .punct "=" :: stream, ¬ token.divides := by
    rw [List.forall_mem_append, List.forall_mem_cons]
    exact ⟨calm.not_divides, by decide, phrase.calm.not_divides⟩
  have settled {target : Stream} (calm : Calm target)
      (written : Written context value (target ++ .punct "=" :: stream))
      (known : ∀ x ∈ targetNames place, isBound table x) :
      ∃ sites added, Shown context table scopes loops (.stmt value)
        (target ++ .punct "=" :: stream) sites added := by
    refine ⟨_, [], shown_simple single start looped (divided calm) written (letNames_assign calm)
      (List.forall_mem_nil _) fun x member => .inl (known x ?_)⟩
    rwa [← spokenBy_eq]
  have fresh {tokens : Stream} (calm : Calm tokens)
      (written : Written context value (.keyword "let" :: (tokens ++ .punct "=" :: stream)))
      (declared : declaredNames tokens = (targetNames place).map identName)
      (new : ∀ x ∈ targetNames place, ¬ isBound table x) :
      ∃ sites added, Shown context table scopes loops (.stmt value)
        (.keyword "let" :: (tokens ++ .punct "=" :: stream)) sites added := by
    refine ⟨_, targetNames place, shown_simple single start looped ?_ written ?_ ?_ ?_⟩
    · exact List.forall_mem_cons.mpr ⟨by decide, divided calm⟩
    · rw [letNames_let_assign, declared]
    · rw [spokenBy_eq]
      exact fun x member => ⟨member, new x member⟩
    · rw [spokenBy_eq]
      exact fun x member => .inr member
  cases placed with
  | bound id bound =>
    exact settled (Phrase.ident id).calm written (List.forall_mem_singleton.mpr bound)
  | fresh id new =>
    rw [bare_newVariable] at written ⊢
    exact fresh (calm_newVariable id type?) written (declaredNames_typing id type?)
      (List.forall_mem_singleton.mpr new)
  | boundTuple names bound =>
    rw [Stream.bare_parenthesized] at written ⊢
    refine settled (Phrase.parenthesized (phrase_boundPattern names)).calm written ?_
    rwa [targetNames, targetsNames_map_name]
  | freshTuple names nonempty new =>
    rw [Stream.bare_group, Stream.bare_join] at written ⊢
    refine @fresh (.punct "(" :: ((freshPattern names).bare ++ [.punct ")"])) ?_ ?_ ?_ ?_
    · exact (Phrase.parenthesized (phrase_freshPattern names)).calm
    · exact written
    · rw [declaredNames_freshPattern, targetNames, targetsNames_map_name]
    · rwa [targetNames, targetsNames_map_name]
  | field _ _ _ lowered =>
    exact settled (phrase_expr lowered).calm written (List.forall_mem_nil _)
  | subscript _ _ _ lowered =>
    exact settled (phrase_expr lowered).calm written (List.forall_mem_nil _)

/-- What is read at a place that is assigned to is written in it. -/
theorem written_place {place : Expr} {type? : Option Ty} {target : Stream}
    (placed : Place context table type? place target) :
    ∀ read ∈ placeReads place,
      ∃ table part, expr context table read = .ok part ∧ PartOf part.bare target.bare := by
  cases placed with
  | field _ _ _ lowered => exact List.forall_mem_singleton.mpr ⟨table, target, lowered, .refl _⟩
  | subscript _ _ _ lowered =>
    exact List.forall_mem_singleton.mpr ⟨table, target, lowered, .refl _⟩
  | _ => exact List.forall_mem_nil _

theorem written_assign {value : Stmt} {place result : Expr} {type? : Option Ty}
    {target stream : Stream} (reads : readBy value = placeReads place ++ [result])
    (placed : Place context table type? place target)
    (lowered : expr context table result = .ok stream) :
    Written context value (target.bare ++ .punct "=" :: stream.bare) := by
  rw [Written, reads, List.forall_mem_append, List.forall_mem_singleton]
  refine ⟨fun read member => ?_, table, stream, lowered, (PartOf.refl _).cons.right⟩
  obtain ⟨other, part, partLowered, found⟩ := written_place placed read member
  exact ⟨other, part, partLowered, found.left⟩

/-- What may be left out is written if it is lowered. -/
theorem written_optional {value : Expr} {stream own : Stream}
    (lowered : expr context table value = .ok stream) (found : PartOf stream.bare own) :
    ∀ read ∈ optionalReads value,
      ∃ table part, expr context table read = .ok part ∧ PartOf part.bare own := by
  intro read member
  rw [optionalReads] at member
  split at member
  · cases member
  · rw [List.mem_singleton.mp member]
    exact ⟨table, stream, lowered, found⟩

/-! ### Blocks -/

theorem step_openBrace {heads : List String} (headed : headNames scopes.current = heads) :
    scopes.step (.punct openBrace) = ⟨heads :: scopes.blocks, []⟩ := by
  rw [← headed]
  rfl

namespace Enclosed

theorem append {first second : Stream} {firstSites secondSites : List Site}
    (firstPart : Enclosed context table scopes first firstSites)
    (secondPart : Enclosed context table ⟨scopes.blocks, []⟩ second secondSites) :
    Enclosed context table scopes (first ++ second) (firstSites ++ secondSites) where
  cut := firstPart.cut.append (firstPart.ends ▸ secondPart.cut)
  ends := by rw [walk_append, firstPart.ends, secondPart.ends]
  framed := firstPart.framed.append (secondPart.framed.mono fun before site _ framed =>
    framed.behind (List.subset_append_right _ _))

/-- A block with its braces is enclosed, and what its head brings is the target of a loop. -/
theorem block {heads added : List String} {body : List Stmt} {stream : Stream} {sites : List Site}
    (headed : headNames scopes.current = heads.map identName) (among : heads ⊆ loops)
    (bound : ∀ x, isBound table x → isBound inner x)
    (shown : Shown context inner ⟨heads.map identName :: scopes.blocks, []⟩ loops (.block body)
      stream sites added) :
    Enclosed context table scopes (.punct openBrace :: (stream ++ [.punct closeBrace])) sites where
  cut := by
    have closed : Cut context (Scopes.walk ⟨heads.map identName :: scopes.blocks, []⟩ stream)
        [.punct closeBrace] [] := .between (by decide) .done
    have cut := shown.cut.append closed
    rw [List.append_nil] at cut
    exact .between (by decide) (step_openBrace headed ▸ cut)
  ends := by
    change (scopes.step (.punct openBrace)).walk _ = _
    rw [step_openBrace headed, walk_append, show Scopes.walk _ stream = _ from shown.ends]
    rfl
  framed := by
    refine shown.framed.mono fun before site member framed => ?_
    have around : heads ⊆ site.loops := by
      have station : site.toStation ∈ blockStations loops body := by
        rw [← show _ = blockStations loops body from shown.stations]
        exact List.mem_map_of_mem member
      exact List.Subset.trans among (subset_loops_of_mem_blockStations body station)
    refine framed.mono (List.subset_append_right _ _) (List.Subset.refl _) bound ?_
    intro text inWider
    rcases List.mem_append.mp inWider with inHead | inBase
    · obtain ⟨x, xMember, same⟩ := List.mem_map.mp inHead
      exact .inr ⟨x, same, .inl (around xMember)⟩
    · exact .inl inBase

/-- The head of a block is a site before it. -/
theorem site {value : Stmt} {own stream : Stream} {sites : List Site}
    (looped : ∀ x ∈ loops, identName x ∈ scopes.visible)
    (undivided : ∀ token ∈ own, ¬ token.divides) (written : Written context value own)
    (enclosed : Enclosed context table ⟨scopes.blocks, scopes.current ++ own⟩ stream sites) :
    Enclosed context table scopes (own ++ stream)
      (⟨⟨value, loops⟩, own, scopes.visible⟩ :: sites) where
  cut := .site loops undivided written (walk_of_not_divides undivided ▸ enclosed.cut)
  ends := by rw [walk_append, walk_of_not_divides undivided, enclosed.ends]
  framed := .cons (frames_self looped) (enclosed.framed.mono fun before site _ framed =>
    framed.behind (List.subset_cons_self _ _))

theorem otherwise {stream : Stream} {sites : List Site}
    (enclosed : Enclosed context table ⟨scopes.blocks, scopes.current ++ [.keyword "else"]⟩ stream
      sites) :
    Enclosed context table scopes (.keyword "else" :: stream) sites where
  cut := .between (by decide) enclosed.cut
  ends := enclosed.ends
  framed := enclosed.framed

/-- A compound statement is enclosed and adds nothing. -/
theorem shown {value : Stmt} {stream : Stream} {sites : List Site}
    (enclosed : Enclosed context table scopes stream sites)
    (stations : sites.map Site.toStation = stmtStations loops value)
    (none : assignedBy value = []) :
    Shown context table scopes loops (.stmt value) stream sites [] where
  cut := enclosed.cut
  stations := stations
  ends := by
    rw [Piece.finish, enclosed.ends]
    rfl
  framed := enclosed.framed
  new := List.forall_mem_nil _
  declared x member := by
    have assigned := (mem_spokenBy.mp member).2
    rw [none] at assigned
    cases assigned

end Enclosed

/-! ### Everything that is emitted -/

/-- Whether a piece can start behind some tokens of its statement: at the start of a statement, or
behind `else` if it is a condition. -/
def Piece.Begins (current : Stream) : Piece → Prop
  | .stmt (.ifElse ..) => current = [] ∨ current = [.keyword "else"]
  | _ => current = []

theorem begins_of_eq_nil {current : Stream} (start : current = []) (piece : Piece) :
    piece.Begins current := by
  unfold Piece.Begins
  split
  · exact .inl start
  · exact start

theorem partOf_stopping {part : Stream} {name : String} {arguments : Stream}
    (found : PartOf part arguments.bare) : PartOf part (stopping name arguments).bare := by
  rw [stopping, Stream.bare_group, Stream.bare_join]
  exact found.left.cons.right

theorem headNames_condition {current condition : Stream}
    (start : current = [] ∨ current = [.keyword "else"]) (phrase : Phrase condition) :
    headNames (current ++ .keyword "if" :: condition) = [] := by
  rcases start with rfl | rfl
  · exact @headNames_words ["if"] _ (by decide) (by decide) phrase
  · exact @headNames_words ["else", "if"] _ (by decide) (by decide) phrase

theorem bare_braced (opened stream : Stream) :
    (braced opened stream).bare =
      opened.bare ++ .punct openBrace :: (stream.bare ++ [.punct closeBrace]) := by
  rw [braced, Stream.bare_group]

theorem written_raise {exc : Expr} {stream own : Stream}
    (noMessage : ∀ id message, exc ≠ .call (.name id) [message] [])
    (lowered : expr context table exc = .ok stream) (found : PartOf stream.bare own) :
    Written context (.raise exc) own := by
  rw [Written, readBy]
  unfold raiseReads
  split
  · exact List.forall_mem_nil _
  · exact absurd rfl (noMessage _ _)
  · exact written_optional lowered found

/-- A program that stops with a value shows a text and then the value. -/
theorem shown_panic {exc value : Expr} {text : String} {stream : Stream}
    (start : scopes.current = []) (looped : ∀ x ∈ loops, identName x ∈ scopes.visible)
    (lowered : expr context table value = .ok stream)
    (written : ∀ own, PartOf stream.bare own → Written context (.raise exc) own) :
    ∃ sites added, Shown context table scopes loops (.stmt (.raise exc))
      (stopping "panic" ((Stream.str [] text).punct "," ++ stream)).bare sites added := by
  refine shown_calm rfl start looped (calm_stopping ?_) (written _ (partOf_stopping ?_))
    (List.forall_mem_nil _)
  · rw [Stream.bare_append, Stream.bare_punct]
    exact .append (.append (.literal _) (.sign (by decide))) (phrase_expr lowered)
  · rw [Stream.bare_append]
    exact (PartOf.refl _).right

/-- What holds of all statements in a compound one holds in both of its blocks. -/
theorem forall_mem_blocks {holds : Stmt → Prop} {value : Stmt} {body orelse : List Stmt}
    (parts : within value = value :: (withinAll body ++ withinAll orelse))
    (each : ∀ other ∈ Piece.statements (.stmt value), holds other) :
    (∀ other ∈ Piece.statements (.block body), holds other) ∧
      ∀ other ∈ Piece.statements (.block orelse), holds other := by
  rw [Piece.statements, parts, List.forall_mem_cons, List.forall_mem_append] at each
  exact each.2

/-- The head of a compound statement is a site, and the sites of its block follow. -/
theorem enclosed_headed {value : Stmt} {body : List Stmt} {opened stream : Stream}
    {heads : List String} (looped : ∀ x ∈ loops, identName x ∈ scopes.visible)
    (calm : Calm opened.bare) (written : Written context value opened.bare)
    (headed : headNames (scopes.current ++ opened.bare) = heads.map identName)
    (bound : ∀ x, isBound table x → isBound inner x)
    (bodyShown : ∃ sites added, Shown context inner ⟨heads.map identName :: scopes.blocks, []⟩
      (heads ++ loops) (.block body) stream.bare sites added) :
    ∃ sites, Enclosed context table scopes (braced opened stream).bare sites ∧
      sites.map Site.toStation = ⟨value, loops⟩ :: blockStations (heads ++ loops) body := by
  obtain ⟨sites, added, shown⟩ := bodyShown
  have block : Enclosed context table ⟨scopes.blocks, scopes.current ++ opened.bare⟩
      (.punct openBrace :: (stream.bare ++ [.punct closeBrace])) sites :=
    .block headed (List.subset_append_left _ _) bound shown
  refine ⟨⟨⟨value, loops⟩, opened.bare, scopes.visible⟩ :: sites, ?_, ?_⟩
  · rw [bare_braced]
    exact .site looped calm.not_divides written block
  · rw [List.map_cons, show sites.map Site.toStation = _ from shown.stations]
    rfl

theorem enclosed_condition {test : Expr} {body : List Stmt} (orelse : List Stmt)
    {condition stream : Stream}
    (start : scopes.current = [] ∨ scopes.current = [.keyword "else"])
    (looped : ∀ x ∈ loops, identName x ∈ scopes.visible)
    (tested : expr context table test = .ok condition)
    (bodyShown : ∃ sites added, Shown context (table.push .block "if") ⟨[] :: scopes.blocks, []⟩
      loops (.block body) stream.bare sites added) :
    ∃ sites, Enclosed context table scopes
        (braced (Stream.keyword [] "if" ++ condition) stream).bare sites ∧
      sites.map Site.toStation = ⟨.ifElse test body orelse, loops⟩ :: blockStations loops body := by
  have written : Written context (.ifElse test body orelse)
      (Stream.keyword [] "if" ++ condition).bare :=
    List.forall_mem_singleton.mpr ⟨table, condition, tested, (PartOf.refl _).cons⟩
  exact @enclosed_headed _ _ _ _ _ _ _ _ _ [] looped (calm_word rfl (phrase_expr tested)) written
    (headNames_condition start (phrase_expr tested)) (fun x bound => by simpa using bound) bodyShown

/-- The block for the other case stands behind `else`. -/
theorem enclosed_otherwise {orelse : List Stmt} {stream : Stream} (start : scopes.current = [])
    (otherShown : ∃ sites added, Shown context (table.push .block "else") ⟨[] :: scopes.blocks, []⟩
      loops (.block orelse) stream.bare sites added) :
    ∃ sites, Enclosed context table scopes (braced (Stream.keyword [] "else") stream).bare sites ∧
      sites.map Site.toStation = blockStations loops orelse := by
  obtain ⟨sites, added, shown⟩ := otherShown
  refine ⟨sites, ?_, shown.stations⟩
  have headed : headNames (scopes.current ++ [.keyword "else"]) = [] := by
    rw [start]
    rfl
  rw [bare_braced]
  exact .otherwise (@Enclosed.block _ _ _ ⟨scopes.blocks, _⟩ _ [] _ _ _ _ headed
    (List.nil_subset _) (fun x bound => by simpa using bound) shown)

/-- A loop without a target is a site with the sites of its block. -/
theorem shown_loop {test : Expr} {body : List Stmt} {opened stream : Stream}
    (start : scopes.current = []) (looped : ∀ x ∈ loops, identName x ∈ scopes.visible)
    (calm : Calm opened.bare) (written : Written context (.whileLoop test body []) opened.bare)
    (headed : headNames opened.bare = [])
    (bodyShown : ∃ sites added, Shown context (table.push .block "while")
      ⟨[] :: scopes.blocks, []⟩ loops (.block body) stream.bare sites added) :
    ∃ sites added, Shown context table scopes loops (.stmt (.whileLoop test body []))
      (braced opened stream).bare sites added := by
  have noNames : headNames (scopes.current ++ opened.bare) = [] := by
    rw [start]
    exact headed
  obtain ⟨sites, enclosed, stations⟩ := @enclosed_headed _ table _ _ _ _ _ _ _ [] looped calm
    written noNames (fun x bound => by simpa using bound) bodyShown
  refine ⟨sites, [], enclosed.shown ?_ rfl⟩
  rw [stations, stmtStations, blockStations, List.append_nil, List.nil_append]

/-- A loop over a sequence is a site with the sites of its block, where the target is visible. -/
theorem shown_for {place iter : Expr} {body : List Stmt} {names : List String}
    {pattern items stream : Stream} (start : scopes.current = [])
    (looped : ∀ x ∈ loops, identName x ∈ scopes.visible) (placed : LoopPlace place names pattern)
    (lowered : expr context table iter = .ok items)
    (bodyShown :
      (∀ x ∈ targetNames place ++ loops, identName x ∈
        Scopes.visible ⟨(targetNames place).map identName :: scopes.blocks, []⟩) →
      ∃ sites added, Shown context (bindTarget place .absent (table.push .block "for"))
        ⟨(targetNames place).map identName :: scopes.blocks, []⟩ (targetNames place ++ loops)
        (.block body) stream.bare sites added) :
    ∃ sites added, Shown context table scopes loops (.stmt (.forLoop place iter body []))
      (braced ((Stream.keyword [] "for" ++ pattern).keyword "in" ++ items) stream).bare
      sites added := by
  let opened : Stream := (Stream.keyword [] "for" ++ pattern).keyword "in" ++ items
  have headed : headNames (scopes.current ++ opened.bare) = (targetNames place).map identName := by
    have spelled : opened.bare =
        .keyword "for" :: (pattern.bare ++ .keyword "in" :: items.bare) := by
      simp [opened]
    rw [start, spelled, List.nil_append]
    exact headNames_loop placed (phrase_expr lowered)
  have calm : Calm opened.bare := by
    rw [Stream.bare_append, Stream.bare_keyword]
    exact .append (.append (calm_word rfl (phrase_loopPlace placed)) (.single rfl))
      (phrase_expr lowered).calm
  have written : Written context (.forLoop place iter body []) opened.bare := by
    refine List.forall_mem_singleton.mpr ⟨table, items, lowered, ?_⟩
    rw [Stream.bare_append]
    exact (PartOf.refl _).right
  have inLoop : ∀ x ∈ targetNames place ++ loops, identName x ∈
      Scopes.visible ⟨(targetNames place).map identName :: scopes.blocks, []⟩ := by
    intro x member
    rcases List.mem_append.mp member with isTarget | isOuter
    · exact List.mem_append_left _ (List.mem_map_of_mem isTarget)
    · exact List.mem_append_right _ (looped x isOuter)
  obtain ⟨sites, enclosed, stations⟩ := enclosed_headed looped calm written headed
    (fun x bound => (isBound_bindTarget _ _ _).mpr (.inr (by simpa using bound)))
    (bodyShown inLoop)
  refine ⟨sites, [], enclosed.shown ?_ rfl⟩
  rw [stations, stmtStations, blockStations, List.append_nil]

/-- The other case of a condition can be a condition again. -/
theorem Enclosed.further {test : Expr} {body : List Stmt} {further : Stmt}
    {stream furtherStream : Stream} {sites later : List Site} {added : List String}
    (enclosed : Enclosed context table scopes stream sites)
    (stations : sites.map Site.toStation =
      ⟨.ifElse test body [further], loops⟩ :: blockStations loops body)
    (shown : Shown context table ⟨scopes.blocks, [.keyword "else"]⟩ loops (.stmt further)
      furtherStream later added) :
    Shown context table scopes loops (.stmt (.ifElse test body [further]))
      (stream ++ .keyword "else" :: furtherStream) (sites ++ later) added where
  cut := enclosed.cut.append (enclosed.ends ▸ .between (by decide) shown.cut)
  stations := by
    rw [List.map_append, stations, show later.map Site.toStation = _ from shown.stations,
      Piece.stations, Piece.stations, stmtStations, blockStations, blockStations, List.append_nil,
      List.cons_append]
  ends := by
    rw [walk_append, enclosed.ends]
    exact shown.ends
  framed := enclosed.framed.append (shown.framed.mono fun before site _ framed =>
    framed.behind (List.subset_append_right _ _))
  new x member := by
    obtain ⟨value, within, spoken⟩ := List.mem_flatMap.mp (shown.new x member).1
    refine ⟨List.mem_flatMap.mpr ⟨value, ?_, spoken⟩, (shown.new x member).2⟩
    rw [Piece.statements, Lower.within, withinAll, withinAll, List.append_nil]
    exact List.mem_cons_of_mem _ (List.mem_append_right _ within)
  declared := List.forall_mem_nil _

theorem shown_nil (start : scopes.current = []) :
    Shown context table scopes loops (.block []) [] [] [] where
  cut := .done
  stations := rfl
  ends := by
    obtain ⟨blocks, current⟩ := scopes
    obtain rfl : current = [] := start
    rw [List.map_nil, declare_nil]
    rfl
  framed := .nil
  new := List.forall_mem_nil _
  declared := List.forall_mem_nil _

theorem Shown.map_value {value : Stmt} {stream : Stream} {sites : List Site} {added : List String}
    (shown : Shown context table scopes loops (.stmt value) stream sites added) :
    sites.map (fun site => site.value) = within value := by
  rw [← map_value_stmtStations loops value, ← show _ = stmtStations loops value from shown.stations,
    List.map_map]
  rfl

/-- What a statement adds to the innermost scope is visible to those behind it. -/
theorem Shown.cons {first : Stmt} {rest : List Stmt} {stream later : Stream}
    {sites laterSites : List Site} {added laterAdded : List String} (simple : ¬ isDefinition first)
    (firstShown : Shown context table scopes loops (.stmt first) stream sites added)
    (restShown : Shown context (bindStmt table first)
      ⟨declare (added.map identName) scopes.blocks, []⟩ loops (.block rest) later laterSites
      laterAdded) :
    Shown context table scopes loops (.block (first :: rest)) (stream ++ .punct ";" :: later)
      (sites ++ laterSites) (laterAdded ++ added) where
  cut := by
    have ended : (scopes.walk stream).step (.punct ";") = _ := firstShown.ends
    exact firstShown.cut.append (.between (by decide) (ended ▸ restShown.cut))
  stations := by
    rw [List.map_append, show sites.map _ = _ from firstShown.stations,
      show laterSites.map _ = _ from restShown.stations]
    rfl
  ends := by
    rw [walk_append]
    change Scopes.walk (Piece.finish (.stmt first) (scopes.walk stream)) later = _
    rw [firstShown.ends, show Scopes.walk _ later = _ from restShown.ends, declare_declare,
      List.map_append]
  framed := by
    refine firstShown.framed.append (restShown.framed.mono fun before site _ framed => ?_)
    refine framed.mono (flatten_subset_declare _ _) (List.subset_append_right _ _)
      (fun x bound => (isBound_bindStmt simple).mpr (.inr bound)) fun text inWider => ?_
    rcases mem_of_mem_declare inWider with isAdded | inBase
    · obtain ⟨x, member, same⟩ := List.mem_map.mp isAdded
      obtain ⟨spoken, new⟩ := firstShown.new x member
      rw [Piece.statements, ← firstShown.map_value] at spoken
      obtain ⟨value, valueMember, spoken⟩ := List.mem_flatMap.mp spoken
      obtain ⟨earlier, earlierMember, rfl⟩ := List.mem_map.mp valueMember
      exact .inr ⟨x, same, .inr ⟨⟨earlier, List.mem_append_left _ earlierMember, spoken⟩, new⟩⟩
    · exact .inl inBase
  new x member := by
    rw [Piece.statements, withinAll, List.flatMap_append, List.mem_append]
    rcases List.mem_append.mp member with isLater | isAdded
    · obtain ⟨spoken, new⟩ := restShown.new x isLater
      exact ⟨.inr spoken, fun bound => new ((isBound_bindStmt simple).mpr (.inr bound))⟩
    · exact ⟨.inl (firstShown.new x isAdded).1, (firstShown.new x isAdded).2⟩
  declared := List.forall_mem_nil _

/-- The statements and blocks without functions in them are shown as sites, one after another. -/
theorem shown_of_emits {options : Options} {piece : Piece} {stream : Stream}
    (emitted : Emits options piece context table stream)
    (flat : ∀ value ∈ piece.statements, ¬ isDefinition value)
    (start : piece.Begins scopes.current) (looped : ∀ x ∈ loops, identName x ∈ scopes.visible) :
    ∃ sites added, Shown context table scopes loops piece stream.bare sites added := by
  induction emitted generalizing scopes loops with
  | functionDef | asyncFunctionDef => exact absurd rfl (flat _ (mem_within_self _))
  | function => exact absurd rfl (flat _ (List.mem_singleton_self _))
  | @expr value _ table stream lowered =>
    refine shown_calm rfl start looped (phrase_expr lowered).calm ?_ (List.forall_mem_nil _)
    exact List.forall_mem_singleton.mpr ⟨table, stream, lowered, .refl _⟩
  | @assign place value _ table target stream placed lowered =>
    rw [Stream.bare_append, Stream.bare_punct, List.append_assoc]
    exact shown_assign rfl start looped Bool.false_ne_true (List.append_nil _) placed
      (phrase_expr lowered) (written_assign (by simp [readBy]) placed lowered)
  | @augSign place value op sign _ table target stream known placed lowered =>
    have calm : ∀ sign ∈ ["+", "-", "*", "/", "%", "<<", ">>", "|", "^", "&"],
        (Token.punct (sign ++ "=")).isCalm := by decide
    rw [Stream.bare_append, Stream.bare_punct]
    refine shown_calm rfl start looped (.append (.append (phrase_expr placed).calm
      (.single (calm _ (mem_of_binarySign? known)))) (phrase_expr lowered).calm) ?_
      (List.forall_mem_nil _)
    rw [Written, readBy, known, Option.isSome_some, if_pos rfl, List.forall_mem_cons,
      List.forall_mem_singleton]
    exact ⟨⟨table, target, placed, (PartOf.refl _).left.left⟩,
      table, stream, lowered, (PartOf.refl _).right⟩
  | @augMethod place value op _ _ table target stream noSign _ placed lowered =>
    rw [Stream.bare_append, Stream.bare_punct, List.append_assoc, List.singleton_append]
    refine ⟨_, [], shown_simple rfl start looped ?_ ?_ (letNames_assign (phrase_expr placed).calm)
      (List.forall_mem_nil _) (List.forall_mem_nil _)⟩
    · rw [List.forall_mem_append, List.forall_mem_cons]
      exact ⟨(phrase_expr placed).calm.not_divides, by decide,
        (phrase_expr lowered).calm.not_divides⟩
    · rw [Written, readBy, noSign, Option.isSome_none, if_neg Bool.false_ne_true,
        List.forall_mem_cons, List.forall_mem_singleton]
      exact ⟨⟨table, target, placed, (PartOf.refl _).left⟩,
        table, stream, lowered, (PartOf.refl _).cons.right⟩
  | @declare id hint value type _ table _ noValue fresh =>
    have calm := calm_newVariable id (some type)
    rw [bare_newVariable]
    refine ⟨_, [id],
      shown_simple rfl start looped ?_ ?_ (declaredNames_typing id (some type)) ?_ ?_⟩
    · exact List.forall_mem_cons.mpr ⟨by decide, calm.not_divides⟩
    · rw [Written, readBy, if_pos noValue]
      exact List.forall_mem_nil _
    · exact List.forall_mem_singleton.mpr ⟨List.mem_singleton_self id, fresh⟩
    · exact fun x member => .inr member
  | @silent place hint value _ _ table _ noValue bound =>
    refine shown_calm rfl start looped (List.forall_mem_nil _) ?_ ?_
    · rw [Written, readBy, if_pos noValue]
      exact List.forall_mem_nil _
    · intro x member
      obtain ⟨spoken, assigned⟩ := mem_spokenBy.mp member
      cases place with
      | name id =>
        rw [List.mem_singleton.mp assigned]
        exact bound id rfl
      | tuple items => exact absurd noValue spoken
      | _ => cases assigned
  | @annAssign place _ _ _ _ table target stream _ someValue placed lowered =>
    rw [Stream.bare_append, Stream.bare_punct, List.append_assoc]
    refine shown_assign rfl start looped ?_ rfl placed (phrase_expr lowered)
      (written_assign (by rw [readBy, if_neg someValue]) placed lowered)
    cases place with
    | tuple items => exact someValue
    | _ => exact Bool.false_ne_true
  | returnNothing noValue =>
    exact shown_silent rfl start looped (.single rfl)
      (by rw [readBy, optionalReads, if_pos noValue]) rfl
  | returnValue lowered =>
    refine shown_calm rfl start looped (.append (.single rfl) (phrase_expr lowered).calm) ?_
      (List.forall_mem_nil _)
    exact written_optional lowered (PartOf.refl _).cons
  | @ifOnly test body _ table condition inner tested _ bodyShown =>
    obtain ⟨inBody, -⟩ := forall_mem_blocks rfl flat
    obtain ⟨sites, enclosed, stations⟩ := enclosed_condition [] start looped tested
      (bodyShown inBody rfl looped)
    refine ⟨sites, [], enclosed.shown ?_ rfl⟩
    rw [stations, stmtStations, blockStations, List.append_nil]
  | @ifFurther test body furtherTest furtherBody furtherElse _ table condition inner further tested
      _ _ bodyShown furtherShown =>
    obtain ⟨inBody, inFurther⟩ := forall_mem_blocks rfl flat
    rw [Piece.statements, withinAll, withinAll, List.append_nil] at inFurther
    obtain ⟨sites, enclosed, stations⟩ := enclosed_condition
      [.ifElse furtherTest furtherBody furtherElse] start looped tested
      (bodyShown inBody rfl looped)
    obtain ⟨later, added, shown⟩ :=
      @furtherShown ⟨scopes.blocks, [.keyword "else"]⟩ loops inFurther (.inr rfl) looped
    rw [Stream.bare_append, Stream.bare_keyword, List.append_assoc]
    exact ⟨sites ++ later, added, enclosed.further stations shown⟩
  | @ifElse test body orelse _ table condition inner other _ _ tested _ _ bodyShown otherShown =>
    obtain ⟨inBody, inOther⟩ := forall_mem_blocks rfl flat
    obtain ⟨sites, enclosed, stations⟩ := enclosed_condition orelse start looped tested
      (bodyShown inBody rfl looped)
    obtain ⟨others, otherEnclosed, otherStations⟩ :=
      @enclosed_otherwise _ table ⟨scopes.blocks, []⟩ loops _ _ rfl
        (otherShown inOther rfl looped)
    rw [bare_braced_else]
    refine ⟨sites ++ others, [], (enclosed.append otherEnclosed).shown ?_ rfl⟩
    rw [List.map_append, stations, otherStations, stmtStations, List.cons_append]
  | forever always _ bodyShown =>
    obtain ⟨inBody, -⟩ := forall_mem_blocks rfl flat
    refine shown_loop start looped (calm_keyword rfl) ?_
      (@headNames_words ["loop"] [] (by decide) (by decide) .nil)
      (bodyShown inBody rfl looped)
    rw [Written, readBy, if_pos always]
    exact List.forall_mem_nil _
  | @whileLoop test body _ table condition inner tested _ bodyShown =>
    obtain ⟨inBody, -⟩ := forall_mem_blocks rfl flat
    refine shown_loop start looped (calm_word rfl (phrase_expr tested)) ?_
      (@headNames_words ["while"] _ (by decide) (by decide) (phrase_expr tested))
      (bodyShown inBody rfl looped)
    rw [Written, readBy]
    split
    · exact List.forall_mem_nil _
    · exact List.forall_mem_singleton.mpr ⟨table, condition, tested, (PartOf.refl _).cons⟩
  | @forLoop place iter body names context table pattern items inner placed lowered _ bodyShown =>
    obtain ⟨inBody, -⟩ := forall_mem_blocks rfl flat
    exact shown_for start looped placed lowered (bodyShown inBody rfl)
  | pass => exact shown_silent rfl start looped (List.forall_mem_nil _) rfl rfl
  | breakLoop | continueLoop => exact shown_silent rfl start looped (.single rfl) rfl rfl
  | raiseNothing => exact shown_silent rfl start looped (calm_stopping .nil) rfl rfl
  | raiseName => exact shown_silent rfl start looped (calm_stopping (.literal _)) rfl rfl
  | @raiseMessage id message _ table stream lowered =>
    exact shown_panic start looped lowered fun own found =>
      List.forall_mem_singleton.mpr ⟨table, stream, lowered, found⟩
  | raiseValue lowered noMessage =>
    exact shown_panic start looped lowered fun own found => written_raise noMessage lowered found
  | @assertOnly test message _ table condition tested noMessage =>
    refine shown_calm rfl start looped (calm_stopping (phrase_expr tested)) ?_
      (List.forall_mem_nil _)
    rw [Written, readBy, optionalReads, if_pos noMessage]
    exact List.forall_mem_singleton.mpr ⟨table, condition, tested, partOf_stopping (.refl _)⟩
  | @assertMessage test message _ table condition stream tested lowered =>
    refine shown_calm rfl start looped (calm_stopping ?_) ?_ (List.forall_mem_nil _)
    · rw [Stream.bare_append, Stream.bare_punct, Stream.bare_str, Stream.bare_punct]
      exact .append (.append (.append (.append (phrase_expr tested) (.sign (by decide)))
        (.literal _)) (.sign (by decide))) (phrase_expr lowered)
    · rw [Written, readBy, List.forall_mem_cons]
      refine ⟨⟨table, condition, tested, partOf_stopping ?_⟩,
        written_optional lowered (partOf_stopping ?_)⟩
      · rw [Stream.bare_append, Stream.bare_punct, Stream.bare_str, Stream.bare_punct]
        exact (PartOf.refl _).left.left.left.left
      · rw [Stream.bare_append]
        exact (PartOf.refl _).right
  | blockNil => exact ⟨[], [], shown_nil start⟩
  | @blockCons first rest _ table stream later _ _ firstShown restShown =>
    rw [Piece.statements, withinAll, List.forall_mem_append] at flat
    obtain ⟨sites, added, shown⟩ := firstShown flat.1 (begins_of_eq_nil start _) looped
    obtain ⟨laterSites, laterAdded, laterShown⟩ :=
      @restShown ⟨declare (added.map identName) scopes.blocks, []⟩ loops flat.2 rfl
        fun x member => flatten_subset_declare _ _ (looped x member)
    rw [Stream.bare_append, Stream.bare_punct, List.append_assoc]
    exact ⟨_, _, shown.cons (flat.1 first (mem_within_self first)) laterShown⟩

end Oxide.Lower
