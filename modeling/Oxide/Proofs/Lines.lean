/-
This file says once what the layout of a stream does. `Lays` has one rule for each part that a
token can play, with what the token adds to the text and the state that it leaves for the rest. The
layout succeeds with a text exactly if the rules derive that text, so what holds of laid out texts
is proved by induction over the derivations, and the positions of tokens, which only faults speak
of, are gone.
-/

import Mathlib.Tactic.SplitIfs
import Oxide.Layout

namespace Oxide.Layout

open Text

/-! ### Roles -/

/-- A token that is a certain sign has its kind and its text. -/
theorem kind_text_of_isPunct {token : Token} {text : String} (isPunct : token.isPunct text) :
    token.kind = .punct ∧ token.text = text := by
  rwa [Token.isPunct, Bool.and_eq_true, decide_eq_true_iff, decide_eq_true_iff] at isPunct

/-- A token is one piece of punctuation only. -/
theorem isPunct_eq_false_of_isPunct {token : Token} {text other : String}
    (isPunct : token.isPunct text) (different : text ≠ other) : token.isPunct other = false := by
  simp [Token.isPunct, kind_text_of_isPunct isPunct, different]

theorem roleOf_eq_comment {token : Token} : roleOf token = .comment ↔ token.kind = .doc := by
  constructor
  · intro role
    unfold roleOf at role
    split_ifs at role with isDoc
    exact isDoc
  · exact fun isDoc => if_pos isDoc

theorem roleOf_eq_opening {token : Token} :
    roleOf token = .opening ↔ token.isPunct openBrace := by
  constructor
  · intro role
    unfold roleOf at role
    split_ifs at role with _ isOpening
    exact isOpening
  · intro isOpening
    have notDoc : token.kind ≠ .doc := by
      rw [(kind_text_of_isPunct isOpening).1]
      decide
    rw [roleOf, if_neg notDoc, if_pos isOpening]

theorem roleOf_eq_closing {token : Token} :
    roleOf token = .closing ↔ token.isPunct closeBrace := by
  constructor
  · intro role
    unfold roleOf at role
    split_ifs at role with _ _ isClosing
    exact isClosing
  · intro isClosing
    obtain ⟨kind, text, joint⟩ := token
    obtain ⟨rfl, rfl⟩ := kind_text_of_isPunct isClosing
    rfl

theorem roleOf_eq_terminator {token : Token} :
    roleOf token = .terminator ↔ token.isPunct ";" := by
  constructor
  · intro role
    unfold roleOf at role
    split_ifs at role with _ _ _ isSemicolon
    exact isSemicolon
  · intro isSemicolon
    obtain ⟨kind, text, joint⟩ := token
    obtain ⟨rfl, rfl⟩ := kind_text_of_isPunct isSemicolon
    rfl

/-! ### The rules -/

/-- What ends the line behind a closing brace, unless the other branch of a condition follows. -/
def lineEnd (depth : Nat) (rest : List Token) : Bytes :=
  if continuesLine rest then [] else newline ++ separation depth rest

/-- The text that is laid out for the rest of a stream, given the count of open braces, whether a
line has just begun, and the token before. -/
inductive Lays : Nat → Bool → Token → Stream → Bytes → Prop where
  | done {fresh : Bool} {previous : Token} :
      Lays 0 fresh previous [] (if fresh then [] else newline)
  | comment {depth : Nat} {fresh : Bool} {previous token : Token} {rest : Stream} {text : Bytes}
      (role : roleOf token = .comment) (later : Lays depth true token rest text) :
      Lays depth fresh previous (token :: rest) (Layout.comment depth token.text ++ text)
  | opening {depth : Nat} {fresh : Bool} {previous token : Token} {rest : Stream} {text : Bytes}
      (role : roleOf token = .opening) (later : Lays (depth + 1) true token rest text) :
      Lays depth fresh previous (token :: rest)
        ((if fresh then [] else space) ++ utf8 token.text ++ (newline ++ text))
  | closing {outer : Nat} {fresh : Bool} {previous token : Token} {rest : Stream} {text : Bytes}
      (role : roleOf token = .closing) (kept : ∀ next ∈ rest.head?, ¬ next.isPunct ";")
      (later : Lays outer (!continuesLine rest) token rest text) :
      Lays (outer + 1) fresh previous (token :: rest)
        ((if fresh then [] else newline) ++ indent outer ++ utf8 token.text ++
          (lineEnd outer rest ++ text))
  | closingDropping {outer : Nat} {fresh : Bool} {previous token next : Token} {rest : Stream}
      {text : Bytes} (role : roleOf token = .closing) (dropped : next.isPunct ";")
      (later : Lays outer (!continuesLine rest) next rest text) :
      Lays (outer + 1) fresh previous (token :: next :: rest)
        ((if fresh then [] else newline) ++ indent outer ++ utf8 token.text ++
          (lineEnd outer rest ++ text))
  | terminator {depth : Nat} {fresh : Bool} {previous token : Token} {rest : Stream} {text : Bytes}
      (role : roleOf token = .terminator) (later : Lays depth true token rest text) :
      Lays depth fresh previous (token :: rest)
        ((if fresh then indent depth else []) ++ utf8 token.text ++
          (newline ++ separation depth rest ++ text))
  | word {depth : Nat} {fresh : Bool} {previous token : Token} {rest : Stream} {text : Bytes}
      (role : roleOf token = .word) (later : Lays depth false token rest text) :
      Lays depth fresh previous (token :: rest)
        ((if fresh then indent depth else if spaced previous token then space else []) ++
          utf8 token.text ++ text)

/-- What is added in front of lines is in front of the text. -/
theorem map_eq_ok {add : Bytes → Bytes} {lines : Except Fault Bytes} {text : Bytes} :
    add <$> lines = .ok text ↔ ∃ later, lines = .ok later ∧ add later = text := by
  cases lines with
  | error fault => simp [Functor.map, Except.map]
  | ok later => simp [Functor.map, Except.map]

theorem lineEnd_nil (depth : Nat) : lineEnd depth [] = newline := by
  simp [lineEnd, continuesLine, separation]

/-- A layout that succeeds follows the rules for lines. -/
theorem lays_of_layoutFrom (position depth : Nat) (fresh : Bool) (previous : Token)
    (stream : Stream) : ∀ text, layoutFrom position depth fresh previous stream = .ok text →
      Lays depth fresh previous stream text := by
  fun_induction layoutFrom position depth fresh previous stream with
  | case1 => exact nofun
  | case2 _ depth _ _ balanced =>
    obtain rfl : depth = 0 := Decidable.not_not.mp balanced
    rintro _ ⟨⟩
    exact .done
  | case3 _ _ _ _ _ _ role inductionHypothesis =>
    intro text laid
    obtain ⟨later, laidLater, rfl⟩ := map_eq_ok.mp laid
    exact .comment role (inductionHypothesis later laidLater)
  | case4 _ _ _ _ _ _ role inductionHypothesis =>
    intro text laid
    obtain ⟨later, laidLater, rfl⟩ := map_eq_ok.mp laid
    rw [List.append_assoc]
    exact .opening role (inductionHypothesis later laidLater)
  | case5 => exact nofun
  | case6 _ _ _ _ role _ _ inductionHypothesis =>
    intro text laid
    obtain ⟨later, laidLater, rfl⟩ := map_eq_ok.mp laid
    rw [List.append_assoc, ← lineEnd_nil]
    exact .closing role nofun (inductionHypothesis later laidLater)
  | case7 _ _ _ _ role outer _ _ rest dropped goesOn inductionHypothesis =>
    intro text laid
    obtain ⟨later, laidLater, rfl⟩ := map_eq_ok.mp laid
    have none : lineEnd outer rest = [] := if_pos goesOn
    rw [← List.nil_append later, ← none]
    refine .closingDropping role dropped ?_
    rw [goesOn]
    exact inductionHypothesis later laidLater
  | case8 _ _ _ _ role outer _ _ rest dropped stops inductionHypothesis =>
    intro text laid
    obtain ⟨later, laidLater, rfl⟩ := map_eq_ok.mp laid
    have some : lineEnd outer rest = newline ++ separation outer rest := if_neg stops
    rw [List.append_assoc _ newline, List.append_assoc, ← some]
    refine .closingDropping role dropped ?_
    rw [Bool.eq_false_iff.mpr stops]
    exact inductionHypothesis later laidLater
  | case9 _ _ _ _ role outer _ next rest kept goesOn inductionHypothesis =>
    intro text laid
    obtain ⟨later, laidLater, rfl⟩ := map_eq_ok.mp laid
    have none : lineEnd outer (next :: rest) = [] := if_pos goesOn
    rw [← List.nil_append later, ← none]
    refine .closing role (by rintro _ ⟨⟩; exact kept) ?_
    rw [goesOn]
    exact inductionHypothesis later laidLater
  | case10 _ _ _ _ role outer _ next rest kept stops inductionHypothesis =>
    intro text laid
    obtain ⟨later, laidLater, rfl⟩ := map_eq_ok.mp laid
    have some : lineEnd outer (next :: rest) = newline ++ separation outer (next :: rest) :=
      if_neg stops
    rw [List.append_assoc _ newline, List.append_assoc, ← some]
    refine .closing role (by rintro _ ⟨⟩; exact kept) ?_
    rw [Bool.eq_false_iff.mpr stops]
    exact inductionHypothesis later laidLater
  | case11 _ _ _ _ _ _ role inductionHypothesis =>
    intro text laid
    obtain ⟨later, laidLater, rfl⟩ := map_eq_ok.mp laid
    rw [List.append_assoc _ newline, List.append_assoc]
    exact .terminator role (inductionHypothesis later laidLater)
  | case12 _ _ _ _ _ _ role inductionHypothesis =>
    intro text laid
    obtain ⟨later, laidLater, rfl⟩ := map_eq_ok.mp laid
    exact .word role (inductionHypothesis later laidLater)

/-- What follows the rules for lines is laid out so, whatever the position. -/
theorem layoutFrom_of_lays {depth : Nat} {fresh : Bool} {previous : Token} {stream : Stream}
    {text : Bytes} (lays : Lays depth fresh previous stream text) (position : Nat) :
    layoutFrom position depth fresh previous stream = .ok text := by
  induction lays generalizing position with
  | done => rfl
  | comment role _ inductionHypothesis =>
    rw [layoutFrom.eq_def]
    simp only [role]
    exact map_eq_ok.mpr ⟨_, inductionHypothesis _, rfl⟩
  | opening role _ inductionHypothesis =>
    rw [layoutFrom.eq_def]
    simp only [role]
    exact map_eq_ok.mpr ⟨_, inductionHypothesis _, List.append_assoc _ _ _⟩
  | @closing outer _ _ _ rest _ role kept _ inductionHypothesis =>
    rw [layoutFrom.eq_def]
    obtain _ | ⟨next, later⟩ := rest
    · simp only [role]
      exact map_eq_ok.mpr ⟨_, inductionHypothesis _, by rw [lineEnd_nil, List.append_assoc]⟩
    · simp only [role, kept next rfl]
      cases goesOn : continuesLine (next :: later) with
      | true =>
        rw [goesOn] at inductionHypothesis
        exact map_eq_ok.mpr ⟨_, inductionHypothesis _, by rw [lineEnd, if_pos goesOn]; rfl⟩
      | false =>
        rw [goesOn] at inductionHypothesis
        exact map_eq_ok.mpr ⟨_, inductionHypothesis _, by
          simp only [lineEnd, goesOn, List.append_assoc]; rfl⟩
  | @closingDropping outer _ _ _ _ rest _ role dropped _ inductionHypothesis =>
    rw [layoutFrom.eq_def]
    simp only [role, dropped]
    cases goesOn : continuesLine rest with
    | true =>
      rw [goesOn] at inductionHypothesis
      exact map_eq_ok.mpr ⟨_, inductionHypothesis _, by rw [lineEnd, if_pos goesOn]; rfl⟩
    | false =>
      rw [goesOn] at inductionHypothesis
      exact map_eq_ok.mpr ⟨_, inductionHypothesis _, by
        simp only [lineEnd, goesOn, List.append_assoc]; rfl⟩
  | terminator role _ inductionHypothesis =>
    rw [layoutFrom.eq_def]
    simp only [role]
    exact map_eq_ok.mpr ⟨_, inductionHypothesis _, by simp only [List.append_assoc]⟩
  | word role _ inductionHypothesis =>
    rw [layoutFrom.eq_def]
    simp only [role]
    exact map_eq_ok.mpr ⟨_, inductionHypothesis _, rfl⟩

/-- The layout succeeds exactly with the text that the rules derive. -/
theorem layout_eq_ok_iff {stream : Stream} {text : Bytes} :
    layout stream = .ok text ↔ Lays 0 true default stream text :=
  ⟨lays_of_layoutFrom 0 0 true default stream text, fun lays => layoutFrom_of_lays lays 0⟩

end Oxide.Layout
