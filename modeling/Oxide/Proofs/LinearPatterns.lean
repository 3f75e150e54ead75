/-
This file is about the patterns that a value is unpacked with. A pattern may bind an identifier only
once. The names of a tuple are looked up in the table as it is before the statement, and never
compared with each other, so the pattern is as linear as the tuple is: no name stands in it twice,
or together with another name that it is escaped to.
-/

import Mathlib.Data.List.Nodup
import Oxide.Proofs.EscapedNames
import Oxide.Proofs.Scopes

namespace Oxide.Lower

/-! ### Names that are escaped alike -/

/-- Names are written apart unless one of them is the spelling of another. -/
theorem writtenApart_iff {names : List String} :
    WrittenApart names ↔ ∀ name ∈ names, identName name ∈ names → identName name = name := by
  constructor
  · intro apart name member escapedMember
    exact apart _ escapedMember name member (identName_identName name)
  · intro own first firstMember second secondMember equal
    rcases identName_eq_iff.mp equal with same | known | known
    · exact same
    · rw [← known, own first firstMember (known ▸ secondMember)]
    · rw [← known, own second secondMember (known ▸ firstMember)]

/-- Spellings are distinct if the names are and are written apart. -/
theorem nodup_map_identName_iff {names : List String} :
    (names.map identName).Nodup ↔ names.Nodup ∧ WrittenApart names := by
  constructor
  · intro distinct
    have namesDistinct := distinct.of_map identName
    exact ⟨namesDistinct, (List.nodup_map_iff_inj_on namesDistinct).mp distinct⟩
  · rintro ⟨namesDistinct, apart⟩
    exact (List.nodup_map_iff_inj_on namesDistinct).mpr apart

/-! ### Patterns -/

/-- `Unpacks statement items` holds if the statement unpacks a value into the tuple of the items. -/
inductive Unpacks : Stmt → List Expr → Prop where
  | assign (items : List Expr) (value : Expr) : Unpacks (.assign [.tuple items] value) items
  | annAssign (items : List Expr) (hint value : Expr) (someValue : ¬ value.isAbsent) :
      Unpacks (.annAssign (.tuple items) hint value) items
  | forLoop (items : List Expr) (iter : Expr) (body orelse : List Stmt) :
      Unpacks (.forLoop (.tuple items) iter body orelse) items

/-- The names that the pattern at the front of a statement binds. -/
def patternNames : Stream → List String
  | [] => []
  | first :: rest =>
    if first.isKeyword "let" then declaredNames rest else loopNames (first :: rest)

/-- Whether a statement that unpacks into the names binds them anew: a loop always does, and an
assignment does unless all of them are bound. -/
def bindsAnew (table : Table) (names : List String) : Stmt → Bool
  | .forLoop .. => true
  | _ => !names.all (isBound table)

section

variable {options : Options} {context : Context} {table : Table}

/-- An assignment to a tuple has the pattern of its names. -/
theorem patternNames_place {type? : Option Ty} {items : List Expr} {target : Stream}
    (placed : Place context table type? (.tuple items) target) (value : Stream) :
    ∃ names : List String, items = names.map Expr.name ∧
      patternNames (target.punct "=" ++ value).bare =
        if !names.all (isBound table) then names.map identName else [] := by
  cases placed with
  | boundTuple names bound =>
    refine ⟨names, rfl, ?_⟩
    rw [List.all_eq_true.mpr bound, Stream.bare_append, Stream.bare_punct,
      Stream.bare_parenthesized]
    rfl
  | freshTuple names nonempty fresh =>
    refine ⟨names, rfl, ?_⟩
    obtain ⟨name, member⟩ := List.exists_mem_of_ne_nil names nonempty
    have notAll : names.all (isBound table) = false :=
      List.all_eq_false.mpr ⟨name, member, fresh name member⟩
    have spelled : Stream.bare (((Stream.keyword [] "let").group "(" ")"
        (Stream.join (freshPattern names))).punct "=" ++ value) =
        .keyword "let" :: ((.punct "(" :: ((freshPattern names).bare ++ [.punct ")"])) ++
          .punct "=" :: value.bare) := by
      simp
    rw [spelled, notAll]
    exact (letNames_let_assign _ _).trans (declaredNames_freshPattern names)

theorem patternNames_loop {names : List String} {items : List Expr} {pattern : Stream}
    (placed : LoopPlace (.tuple items) names pattern) (collection inner : Stream) :
    items = names.map Expr.name ∧
      patternNames (braced ((Stream.keyword [] "for" ++ pattern).keyword "in" ++ collection)
        inner).bare = names.map identName := by
  have looped := loopNames_of_loopPlace placed
  cases placed with
  | several names =>
    refine ⟨rfl, ?_⟩
    rw [targetNames, targetsNames_map_name] at looped
    have spelled : Stream.bare (braced ((Stream.keyword [] "for" ++
        parenthesized (boundPattern names)).keyword "in" ++ collection) inner) =
        .keyword "for" :: ((parenthesized (boundPattern names)).bare ++ .keyword "in" ::
          (collection.bare ++ .punct openBrace :: (inner.bare ++ [.punct closeBrace]))) := by
      simp [braced]
    rw [spelled]
    exact looped _

/-- A statement that unpacks shows the pattern of its names. -/
theorem patternNames_eq {statement : Stmt} {items : List Expr} {stream : Stream}
    (unpacks : Unpacks statement items)
    (emitted : Emits options (.stmt statement) context table stream) :
    ∃ names : List String, items = names.map Expr.name ∧
      patternNames stream.bare =
        if bindsAnew table names statement then names.map identName else [] := by
  cases unpacks with
  | assign =>
    cases emitted with
    | assign placed => exact patternNames_place placed _
  | annAssign _ _ _ someValue =>
    cases emitted with
    | silent _ noValue => exact absurd noValue someValue
    | annAssign _ _ placed => exact patternNames_place placed _
  | forLoop =>
    cases emitted with
    | forLoop placed =>
      obtain ⟨itemNames, patterned⟩ := patternNames_loop placed _ _
      exact ⟨_, itemNames, patterned⟩

/-- A tuple that is accepted holds names only. The pattern that is written for it binds their
identifiers in the order of the tuple, if it binds them anew; so they are pairwise distinct if and
only if the names are, and none of them is escaped to another one. -/
theorem patternNames_nodup_iff {statement : Stmt} {items : List Expr} {stream : Stream}
    (lowered : stmt options statement context table = .ok stream)
    (unpacks : Unpacks statement items) :
    ∃ names : List String, items = names.map Expr.name ∧
      patternNames stream.bare =
        (if bindsAnew table names statement then names.map identName else []) ∧
      ((patternNames stream.bare).Nodup ↔ bindsAnew table names statement →
        names.Nodup ∧ ∀ name ∈ names, identName name ∈ names → identName name = name) := by
  obtain ⟨names, itemNames, patterned⟩ := patternNames_eq unpacks
    (emits_of_stmt statement context table stream lowered)
  refine ⟨names, itemNames, patterned, ?_⟩
  rw [patterned, ← writtenApart_iff, ← nodup_map_identName_iff]
  cases bindsAnew table names statement with
  | false => simp
  | true => simp

end

/-- The underscore stands twice in a tuple of new names. -/
theorem patternNames_nodup_iff_underscores :
    let items : List Expr := ["_", "x", "_"].map .name
    let statement : Stmt := .assign [.tuple items] (.name "t")
    Unpacks statement items ∧ ∃ stream, stmt {} statement .module Table.new = .ok stream ∧
      patternNames stream.bare = ["__", "x", "__"] ∧ ¬ (patternNames stream.bare).Nodup := by
  intro items statement
  have unpacks : Unpacks statement items := .assign items (.name "t")
  obtain ⟨stream, lowered⟩ : ∃ stream, stmt {} statement .module Table.new = .ok stream := ⟨_, rfl⟩
  obtain ⟨names, itemNames, patterned, linear⟩ := patternNames_nodup_iff lowered unpacks
  have isName : Function.Injective Expr.name := fun _ _ equal => Expr.name.inj equal
  obtain rfl := List.map_injective_iff.mpr isName itemNames
  have anew : bindsAnew Table.new ["_", "x", "_"] statement := by decide
  refine ⟨unpacks, stream, lowered, ?_, fun distinct => ?_⟩
  · rw [patterned, if_pos anew]
    decide
  · exact absurd (linear.mp distinct anew).1 (by decide)

end Oxide.Lower
