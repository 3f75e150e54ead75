/-
This file shows how a path falls into parts. It is cut at double colons from the left: the first
cut is at the first double colon, and the next one is looked for behind it, so that of three colons
in a row the last one stays. This determines the parts, none of them has a double colon in it, and
put together again they give the path.
-/

import Mathlib.Data.Nat.Find
import Oxide.Proofs.TypeTokens

namespace Oxide.Ty

/-! ### Cuts from the left -/

/-- A double colon begins at the given place of a text. -/
def ColonsAt (text : List Char) (place : Nat) : Prop :=
  [':', ':'] <+: text.drop place

instance (text : List Char) (place : Nat) : Decidable (ColonsAt text place) :=
  inferInstanceAs (Decidable (_ <+: _))

/-- The parts of a text that is cut at double colons from the left. A text without any is one part.
Otherwise the first part goes up to the first double colon, and the others are those of the text
behind it, so that no colon takes part in two cuts. -/
inductive CutFromLeft : List Char → List (List Char) → Prop where
  | whole {text : List Char} (uncut : ∀ place, ¬ ColonsAt text place) : CutFromLeft text [text]
  | cut {part rest : List Char} {parts : List (List Char)}
      (first : ∀ place < part.length, ¬ ColonsAt (part ++ ':' :: ':' :: rest) place)
      (later : CutFromLeft rest parts) : CutFromLeft (part ++ ':' :: ':' :: rest) (part :: parts)

theorem colonsAt_length_append (part rest : List Char) :
    ColonsAt (part ++ ':' :: ':' :: rest) part.length := by
  rw [ColonsAt, List.drop_left]
  exact ⟨rest, rfl⟩

/-- A text with a double colon at a place is what stands before it and what stands behind it. -/
theorem eq_append_of_colonsAt {text : List Char} {place : Nat} (colons : ColonsAt text place) :
    ∃ part rest, part.length = place ∧ text = part ++ ':' :: ':' :: rest := by
  obtain ⟨rest, dropped⟩ := colons
  have within : place ≤ text.length := by
    by_contra beyond
    rw [List.drop_of_length_le (by omega)] at dropped
    cases dropped
  exact ⟨text.take place, rest, List.length_take_of_le within,
    ((List.take_append_drop place text).symm.trans (congrArg _ dropped.symm))⟩

/-- Every text can be cut from the left. -/
theorem exists_cutFromLeft (text : List Char) : ∃ parts, CutFromLeft text parts := by
  by_cases cut : ∃ place, ColonsAt text place
  · obtain ⟨part, rest, length, rfl⟩ := eq_append_of_colonsAt (Nat.find_spec cut)
    obtain ⟨parts, later⟩ := exists_cutFromLeft rest
    exact ⟨part :: parts, .cut (fun place before => Nat.find_min cut (length ▸ before)) later⟩
  · exact ⟨[text], .whole (not_exists.mp cut)⟩
termination_by text.length
decreasing_by
  subst_vars
  simp only [List.length_append, List.length_cons]
  omega

namespace CutFromLeft

variable {text : List Char} {parts : List (List Char)}

theorem ne_nil (cut : CutFromLeft text parts) : parts ≠ [] := by
  cases cut <;> exact List.cons_ne_nil _ _

/-- Parts that are put together again give the text. -/
theorem intercalate_eq (cut : CutFromLeft text parts) :
    [':', ':'].intercalate parts = text := by
  induction cut with
  | whole => exact List.intercalate_singleton
  | @cut part rest parts _ later joined =>
    obtain ⟨next, others, rfl⟩ := List.exists_cons_of_ne_nil later.ne_nil
    rw [List.intercalate_cons_cons, joined, List.append_assoc]
    rfl

/-- No part has a double colon in it. -/
theorem not_infix (cut : CutFromLeft text parts) {part : List Char} (member : part ∈ parts) :
    ¬ [':', ':'] <:+: part := by
  induction cut with
  | @whole text uncut =>
    obtain rfl := List.mem_singleton.mp member
    rintro ⟨before, behind, rfl⟩
    refine uncut before.length ?_
    rw [List.append_assoc]
    exact colonsAt_length_append before behind
  | @cut first rest parts isFirst _ inductionHypothesis =>
    rcases List.mem_cons.mp member with rfl | inRest
    · rintro ⟨before, behind, rfl⟩
      refine isFirst before.length (by simp) ?_
      simp only [List.append_assoc]
      exact colonsAt_length_append before _
    · exact inductionHypothesis inRest

end CutFromLeft

/-! ### The parts of a path -/

theorem splitPathFrom_of_uncut (piece : List Char) {text : List Char}
    (uncut : ∀ place, ¬ ColonsAt text place) :
    splitPathFrom piece text = [String.ofList (piece.reverse ++ text)] := by
  fun_induction splitPathFrom piece text with
  | case1 piece => rw [List.append_nil]
  | case2 piece rest => exact absurd (colonsAt_length_append [] rest) (uncut 0)
  | case3 piece c rest _ inductionHypothesis =>
    rw [inductionHypothesis fun place => uncut (place + 1)]
    simp

theorem splitPathFrom_append (piece : List Char) {part rest : List Char}
    (first : ∀ place < part.length, ¬ ColonsAt (part ++ ':' :: ':' :: rest) place) :
    splitPathFrom piece (part ++ ':' :: ':' :: rest) =
      String.ofList (piece.reverse ++ part) :: splitPathFrom [] rest := by
  induction part generalizing piece with
  | nil => rw [List.nil_append, splitPathFrom, List.append_nil]
  | cons c part inductionHypothesis =>
    rw [List.cons_append, splitPathFrom, inductionHypothesis]
    · simp
    · exact fun place before => first (place + 1) (Nat.succ_lt_succ before)
    · rintro others rfl same
      refine first 0 (Nat.zero_lt_succ _) ?_
      rw [List.cons_append, same]
      exact colonsAt_length_append [] others

/-- The parts of a path are those that it is cut into from the left. -/
theorem splitPath_eq_of_cutFromLeft {text : List Char} {parts : List (List Char)}
    (cut : CutFromLeft text parts) : splitPathFrom [] text = parts.map String.ofList := by
  induction cut with
  | whole uncut => exact splitPathFrom_of_uncut [] uncut
  | cut first _ inductionHypothesis =>
    rw [splitPathFrom_append [] first, inductionHypothesis]
    rfl

theorem cutFromLeft_splitPath (path : String) :
    CutFromLeft path.toList ((splitPath path).map String.toList) := by
  obtain ⟨parts, cut⟩ := exists_cutFromLeft path.toList
  have same : (splitPath path).map String.toList = parts := by
    rw [splitPath, splitPath_eq_of_cutFromLeft cut]
    simp [Function.comp_def]
  rw [same]
  exact cut

/-- A path has at least one part. The parts with double colons between them are the path again,
none of them has a double colon in it, and the path is cut at the double colons that are found from
the left, each one behind the one before, into these parts and no others. -/
theorem splitPath_cuts_from_left (path : String) :
    splitPath path ≠ [] ∧ "::".intercalate (splitPath path) = path ∧
      (∀ part ∈ splitPath path, ¬ [':', ':'] <:+: part.toList) ∧
      ∀ parts : List String,
        CutFromLeft path.toList (parts.map String.toList) ↔ parts = splitPath path := by
  have cut := cutFromLeft_splitPath path
  refine ⟨splitPathFrom_ne_nil [] _, ?_, ?_, fun parts => ⟨?_, ?_⟩⟩
  · rw [← String.toList_inj, String.toList_intercalate]
    exact cut.intercalate_eq
  · exact fun part member => cut.not_infix (List.mem_map_of_mem member)
  · intro other
    rw [splitPath, splitPath_eq_of_cutFromLeft other]
    simp [Function.comp_def]
  · rintro rfl
    exact cut

example : splitPath ":::" = ["", ":"] ∧ splitPath "a::::b" = ["a", "", "b"] := by
  decide +kernel

end Oxide.Ty
