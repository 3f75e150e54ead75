/-
This file describes the texts that trees are printed as. A form is a group of parts in brackets,
with a name before the bracket and labels before the parts, or a text in quotes, or a bare word. The
characters of a form tell which form it is, and also where it ends: a quoted text ends at the first
quote that is not escaped, a group at the bracket that closes it, and a word before the first
character that divides.
-/

import Oxide.Tree.Dump

namespace Oxide

/-! ### Words -/

/-- Whether a character stands for itself in a printed tree and does not divide it. -/
def isPlain (c : Char) : Bool :=
  !(['(', ')', '[', ']', ',', '=', '\x27'].contains c)

/-- Whether a text has no character that divides. -/
def isWord (text : String) : Bool :=
  text.toList.all isPlain

/-- Whether nothing follows, or a character that divides. -/
def Divided (rest : List Char) : Prop :=
  ∀ c ∈ rest.head?, isPlain c = false

@[simp] theorem divided_cons (c : Char) (rest : List Char) :
    Divided (c :: rest) ↔ isPlain c = false := by
  simp [Divided]

/-- Plain characters end where a character divides. -/
theorem append_inj_of_plain (first second : List Char) {rest others : List Char}
    (plain : first.all isPlain) (otherPlain : second.all isPlain) (divided : Divided rest)
    (otherDivided : Divided others) (same : first ++ rest = second ++ others) :
    first = second ∧ rest = others := by
  induction first generalizing second with
  | nil =>
    cases second with
    | nil => exact ⟨rfl, same⟩
    | cons c second =>
      obtain rfl : rest = c :: (second ++ others) := same
      simp_all
  | cons c first inductionHypothesis =>
    cases second with
    | nil =>
      obtain rfl : others = c :: (first ++ rest) := same.symm
      simp_all
    | cons d second =>
      rw [List.all_cons, Bool.and_eq_true] at plain otherPlain
      obtain ⟨rfl, tails⟩ := List.cons.inj same
      obtain ⟨rfl, restSame⟩ := inductionHypothesis second plain.2 otherPlain.2 tails
      exact ⟨rfl, restSame⟩

/-! ### Quoted texts -/

/-- The characters between the quotes of a text, and the quote that ends it. -/
def quotedTail (text rest : List Char) : List Char :=
  text.flatMap dumpChar ++ '\x27' :: rest

/-- A text starts with its quote, and what follows it is behind the closing one. -/
theorem toList_dumpText_append (text : String) (rest : List Char) :
    (dumpText text).toList ++ rest = '\x27' :: quotedTail text.toList rest := by
  simp [dumpText, quotedTail]

/-- What a character is written as tells which one it is, whatever follows, and is never a quote. -/
theorem dumpChar_append_inj {c d : Char} {rest others : List Char}
    (same : dumpChar c ++ rest = dumpChar d ++ others) : c = d ∧ rest = others := by
  unfold dumpChar at same
  split at same <;> split at same <;> grind

/-- No character of a text is printed as a quote alone. -/
theorem dumpChar_append_ne (c : Char) (rest others : List Char) :
    dumpChar c ++ rest ≠ '\x27' :: others := by
  unfold dumpChar
  split <;> simp_all

/-- A quoted text ends at its closing quote and nowhere else. -/
theorem quotedTail_inj {first second rest others : List Char}
    (same : quotedTail first rest = quotedTail second others) :
    first = second ∧ rest = others := by
  induction first generalizing second with
  | nil =>
    cases second with
    | nil => exact ⟨rfl, (List.cons.inj same).2⟩
    | cons d second =>
      rw [quotedTail, quotedTail, List.flatMap_cons, List.append_assoc] at same
      exact absurd same.symm (dumpChar_append_ne d _ _)
  | cons c first inductionHypothesis =>
    cases second with
    | nil =>
      rw [quotedTail, quotedTail, List.flatMap_cons, List.append_assoc] at same
      exact absurd same (dumpChar_append_ne c _ _)
    | cons d second =>
      rw [quotedTail, quotedTail, List.flatMap_cons, List.flatMap_cons, List.append_assoc,
        List.append_assoc] at same
      obtain ⟨rfl, tails⟩ := dumpChar_append_inj same
      obtain ⟨rfl, restSame⟩ := inductionHypothesis tails
      exact ⟨rfl, restSame⟩

/-- A quoted text is determined by its characters, whatever follows. -/
theorem dumpText_append_inj {first second : String} {rest others : List Char}
    (same : (dumpText first).toList ++ rest = (dumpText second).toList ++ others) :
    first = second ∧ rest = others := by
  rw [toList_dumpText_append, toList_dumpText_append] at same
  obtain ⟨characters, restSame⟩ := quotedTail_inj (List.cons.inj same).2
  exact ⟨String.toList_inj.mp characters, restSame⟩

/-! ### Forms -/

/-- What a tree is printed as: parts in brackets, which are square or round, a text in quotes, or a
word. -/
inductive Form where
  | group (name : String) (square : Bool) (parts : List (Option String × Form))
  | quoted (text : String)
  | bare (word : String)

namespace Form

/-- The bracket before the parts of a group. -/
def opening (square : Bool) : Char :=
  if square then '[' else '('

/-- The bracket behind the parts of a group. -/
def closing (square : Bool) : Char :=
  if square then ']' else ')'

/-- The characters of the label before a part. -/
def labelChars : Option String → List Char
  | none => []
  | some key => key.toList ++ ['=']

mutual

/-- The characters of a form. -/
def chars : Form → List Char
  | .group name square parts =>
    name.toList ++ opening square :: (partsChars parts ++ [closing square])
  | .quoted text => (dumpText text).toList
  | .bare word => word.toList

/-- The characters of parts, with a comma between any two of them. -/
def partsChars : List (Option String × Form) → List Char
  | [] => []
  | (label, value) :: rest =>
    labelChars label ++ value.chars ++ (if rest.isEmpty then [] else [',', ' ']) ++ partsChars rest

end

mutual

/-- Whether all names, labels and words have no character that divides, and no word is empty. -/
def isProper : Form → Bool
  | .group name _ parts => isWord name && areProper parts
  | .quoted _ => true
  | .bare word => word ≠ "" && isWord word

/-- Whether the labels and values of parts are proper. -/
def areProper : List (Option String × Form) → Bool
  | [] => true
  | (label, value) :: rest => label.all isWord && value.isProper && areProper rest

end

/-! ### Where a form begins and ends -/

/-- Whether a form can end here: nothing follows, or a comma or a closing bracket does. -/
def Ended (rest : List Char) : Prop :=
  ∀ c ∈ rest.head?, c ∈ [',', ')', ']']

@[simp] theorem ended_nil : Ended [] := by simp [Ended]

@[simp] theorem ended_cons (c : Char) (rest : List Char) :
    Ended (c :: rest) ↔ c ∈ [',', ')', ']'] := by
  simp [Ended]

/-- What ends a form also ends a word. -/
theorem Ended.divided {rest : List Char} (ended : Ended rest) : Divided rest := by
  have divides : ∀ c ∈ [',', ')', ']'], isPlain c = false := by simp [isPlain]
  exact fun c isHead => divides c (ended c isHead)

theorem Ended.head?_ne {rest : List Char} (ended : Ended rest) {c : Char}
    (other : c ∉ [',', ')', ']']) : rest.head? ≠ some c :=
  fun isHead => other (ended c isHead)

@[simp] theorem isPlain_opening (square : Bool) : isPlain (opening square) = false := by
  cases square <;> decide

theorem opening_mem (square : Bool) : opening square ∈ ['(', '[', '\x27'] := by
  cases square <;> decide

theorem opening_inj {square other : Bool} (same : opening square = opening other) :
    square = other := by
  revert same
  cases square <;> cases other <;> decide

theorem closing_mem (square : Bool) : closing square ∈ [',', ')', ']'] := by
  cases square <;> decide

/-- A group is its name and its parts between two delimiters. -/
theorem chars_group_append (name : String) (square : Bool) (parts : List (Option String × Form))
    (rest : List Char) :
    (group name square parts).chars ++ rest =
      name.toList ++ opening square :: (partsChars parts ++ closing square :: rest) := by
  simp [chars]

theorem isProper_group {name : String} {square : Bool} {parts : List (Option String × Form)}
    (proper : (group name square parts).isProper) :
    name.toList.all isPlain ∧ areProper parts := by
  rwa [isProper, Bool.and_eq_true] at proper

theorem isProper_bare {word : String} (proper : (bare word).isProper) :
    word.toList ≠ [] ∧ word.toList.all isPlain := by
  rw [isProper, Bool.and_eq_true, decide_eq_true_eq] at proper
  exact ⟨by simpa using proper.1, proper.2⟩

/-- No form begins with plain characters that are followed by a comma, an equals sign or a closing
bracket, unless the form is a word and ends there. -/
theorem chars_append_ne {value : Form} (proper : value.isProper) (word : List Char)
    {rest : List Char} (plain : word.all isPlain) (ended : Ended rest) {c : Char}
    (divides : isPlain c = false) (other : c ∉ ['(', '[', '\x27'])
    (apart : word = [] ∨ c ∉ [',', ')', ']'])
    (others : List Char) : value.chars ++ rest ≠ word ++ c :: others := by
  intro same
  have divided : Divided (c :: others) := (divided_cons c others).mpr divides
  cases value with
  | group name square parts =>
    rw [chars_group_append] at same
    obtain ⟨-, brackets⟩ :=
      append_inj_of_plain _ _ (isProper_group proper).1 plain (by simp) divided same
    obtain ⟨rfl, -⟩ := List.cons.inj brackets
    exact other (opening_mem square)
  | quoted text =>
    rw [chars, toList_dumpText_append] at same
    obtain ⟨-, quotes⟩ :=
      append_inj_of_plain [] _ rfl plain (by simp [isPlain]) divided same
    obtain ⟨rfl, -⟩ := List.cons.inj quotes
    exact other (by decide)
  | bare text =>
    obtain ⟨nonempty, textPlain⟩ := isProper_bare proper
    obtain ⟨rfl, rfl⟩ := append_inj_of_plain _ _ textPlain plain ended.divided divided same
    rcases apart with empty | different
    · exact nonempty empty
    · exact ended.head?_ne different rfl

/-! ### Forms can be told apart -/

/-- A group is never taken for a text. -/
theorem group_append_ne_quoted {name : String} {square : Bool}
    {parts : List (Option String × Form)} (proper : (group name square parts).isProper)
    (text : String) (rest others : List Char) :
    (group name square parts).chars ++ rest ≠ (quoted text).chars ++ others := by
  intro same
  rw [chars_group_append, chars, toList_dumpText_append] at same
  obtain ⟨-, brackets⟩ := append_inj_of_plain _ [] (isProper_group proper).1 rfl
    (by simp) (by simp [isPlain]) same
  have bracket : opening square = '\x27' := (List.cons.inj brackets).1
  cases square <;> exact absurd bracket (by decide)

/-- A group is never taken for a word. -/
theorem group_append_ne_bare {name : String} {square : Bool}
    {parts : List (Option String × Form)} (proper : (group name square parts).isProper)
    {word : String} (wordProper : (bare word).isProper) (rest : List Char) {others : List Char}
    (ended : Ended others) :
    (group name square parts).chars ++ rest ≠ (bare word).chars ++ others := by
  intro same
  rw [chars_group_append, chars] at same
  obtain ⟨-, rfl⟩ := append_inj_of_plain _ _ (isProper_group proper).1 (isProper_bare wordProper).2
    (by simp) ended.divided same
  cases square <;> exact absurd ended (by simp [opening])

/-- A text is never taken for a word. -/
theorem quoted_append_ne_bare (text : String) {word : String}
    (wordProper : (bare word).isProper) (rest : List Char) {others : List Char}
    (ended : Ended others) : (quoted text).chars ++ rest ≠ (bare word).chars ++ others := by
  intro same
  obtain ⟨nonempty, plain⟩ := isProper_bare wordProper
  rw [chars, chars, toList_dumpText_append] at same
  obtain ⟨empty, -⟩ :=
    append_inj_of_plain [] _ rfl plain (by simp [isPlain]) ended.divided same
  exact nonempty empty.symm

/-- A label ends at its equals sign, and what has none has no label. -/
theorem labelChars_inj {label other : Option String} (labelProper : label.all isWord)
    (otherLabelProper : other.all isWord) {first second : Form} (proper : first.isProper)
    (otherProper : second.isProper) {rest others : List Char} (ended : Ended rest)
    (otherEnded : Ended others)
    (same : labelChars label ++ (first.chars ++ rest) =
      labelChars other ++ (second.chars ++ others)) :
    label = other ∧ first.chars ++ rest = second.chars ++ others := by
  cases label with
  | none =>
    cases other with
    | none => exact ⟨rfl, same⟩
    | some key =>
      rw [labelChars, labelChars, List.append_assoc] at same
      exact absurd same
        (chars_append_ne proper _ otherLabelProper ended rfl (by decide) (.inr (by decide)) _)
  | some key =>
    cases other with
    | none =>
      rw [labelChars, labelChars, List.append_assoc] at same
      exact absurd same.symm
        (chars_append_ne otherProper _ labelProper otherEnded rfl (by decide) (.inr (by decide)) _)
    | some otherKey =>
      rw [labelChars, labelChars, List.append_assoc, List.append_assoc] at same
      obtain ⟨keys, tails⟩ := append_inj_of_plain _ _ labelProper otherLabelProper
        (by simp [isPlain]) (by simp [isPlain]) same
      exact ⟨congrArg some (String.toList_inj.mp keys), (List.cons.inj tails).2⟩

/-- What follows the value of a part up to the end of its group and beyond. -/
def tailChars (square : Bool) (parts : List (Option String × Form)) (rest : List Char) :
    List Char :=
  (if parts.isEmpty then [] else [',', ' ']) ++ partsChars parts ++ closing square :: rest

theorem partsChars_cons_append (square : Bool) (label : Option String) (value : Form)
    (parts : List (Option String × Form)) (rest : List Char) :
    partsChars ((label, value) :: parts) ++ closing square :: rest =
      labelChars label ++ (value.chars ++ tailChars square parts rest) := by
  simp [partsChars, tailChars]

/-- Behind a part there is a comma or the closing delimiter. -/
theorem ended_tailChars (square : Bool) (parts : List (Option String × Form)) (rest : List Char) :
    Ended (tailChars square parts rest) := by
  cases parts with
  | nil => simpa [tailChars, partsChars] using closing_mem square
  | cons part parts => simp [tailChars]

/-- A group with further parts does not end. -/
theorem partsChars_cons_append_ne {label : Option String} (labelProper : label.all isWord)
    {value : Form} (proper : value.isProper) (square : Bool) (parts : List (Option String × Form))
    (rest others : List Char) :
    partsChars ((label, value) :: parts) ++ closing square :: rest ≠ closing square :: others := by
  rw [partsChars_cons_append]
  have divides : isPlain (closing square) = false := by cases square <;> decide
  have notOpening : closing square ∉ ['(', '[', '\x27'] := by cases square <;> decide
  cases label with
  | none =>
    exact chars_append_ne proper [] rfl (ended_tailChars square parts rest) divides
      notOpening (.inl rfl) others
  | some key =>
    intro same
    rw [labelChars, List.append_assoc] at same
    obtain ⟨-, equals⟩ := append_inj_of_plain _ [] labelProper rfl (by simp [isPlain])
      ((divided_cons _ others).mpr divides) same
    have sign : '=' = closing square := (List.cons.inj equals).1
    cases square <;> exact absurd sign (by decide)

mutual

/-- A form is determined by its characters, and so is what follows it. -/
theorem chars_inj : (first second : Form) → first.isProper → second.isProper →
    {rest others : List Char} → Ended rest → Ended others →
    first.chars ++ rest = second.chars ++ others → first = second ∧ rest = others
  | .group name square parts, second, proper, otherProper, rest, others, ended, otherEnded,
      same => by
    cases second with
    | group otherName otherSquare otherParts =>
      obtain ⟨plain, partsProper⟩ := isProper_group proper
      obtain ⟨otherPlain, otherPartsProper⟩ := isProper_group otherProper
      rw [chars_group_append, chars_group_append] at same
      obtain ⟨names, brackets⟩ := append_inj_of_plain _ _ plain otherPlain (by simp) (by simp) same
      obtain ⟨bracket, inner⟩ := List.cons.inj brackets
      obtain rfl := opening_inj bracket
      obtain ⟨rfl, rests⟩ :=
        partsChars_inj square parts otherParts partsProper otherPartsProper inner
      exact ⟨by rw [String.toList_inj.mp names], rests⟩
    | quoted text => exact absurd same (group_append_ne_quoted proper text rest others)
    | bare word => exact absurd same (group_append_ne_bare proper otherProper rest otherEnded)
  | .quoted text, second, _, otherProper, rest, others, ended, otherEnded, same => by
    cases second with
    | group name square parts =>
      exact absurd same.symm (group_append_ne_quoted otherProper text others rest)
    | quoted otherText =>
      obtain ⟨rfl, rests⟩ := dumpText_append_inj same
      exact ⟨rfl, rests⟩
    | bare word => exact absurd same (quoted_append_ne_bare text otherProper rest otherEnded)
  | .bare word, second, proper, otherProper, rest, others, ended, otherEnded, same => by
    cases second with
    | group name square parts =>
      exact absurd same.symm (group_append_ne_bare otherProper proper others ended)
    | quoted text => exact absurd same.symm (quoted_append_ne_bare text proper others ended)
    | bare otherWord =>
      obtain ⟨words, rests⟩ := append_inj_of_plain _ _ (isProper_bare proper).2
        (isProper_bare otherProper).2 ended.divided otherEnded.divided same
      exact ⟨by rw [String.toList_inj.mp words], rests⟩

/-- The parts of a group are determined by their characters up to the bracket that closes it. -/
theorem partsChars_inj (square : Bool) : (first second : List (Option String × Form)) →
    areProper first → areProper second → {rest others : List Char} →
    partsChars first ++ closing square :: rest = partsChars second ++ closing square :: others →
    first = second ∧ rest = others
  | [], [], _, _, _, _, same => ⟨rfl, (List.cons.inj same).2⟩
  | [], (label, value) :: parts, _, otherProper, rest, others, same => by
    simp only [areProper, Bool.and_eq_true] at otherProper
    exact absurd same.symm
      (partsChars_cons_append_ne otherProper.1.1 otherProper.1.2 square parts others rest)
  | (label, value) :: parts, [], proper, _, rest, others, same => by
    simp only [areProper, Bool.and_eq_true] at proper
    exact absurd same
      (partsChars_cons_append_ne proper.1.1 proper.1.2 square parts rest others)
  | (label, value) :: parts, (otherLabel, otherValue) :: otherParts, proper, otherProper, rest,
      others, same => by
    simp only [areProper, Bool.and_eq_true] at proper otherProper
    obtain ⟨⟨labelProper, valueProper⟩, partsProper⟩ := proper
    obtain ⟨⟨otherLabelProper, otherValueProper⟩, otherPartsProper⟩ := otherProper
    rw [partsChars_cons_append, partsChars_cons_append] at same
    have ended := ended_tailChars square parts rest
    have otherEnded := ended_tailChars square otherParts others
    obtain ⟨rfl, values⟩ := labelChars_inj labelProper otherLabelProper valueProper
      otherValueProper ended otherEnded same
    obtain ⟨rfl, tails⟩ :=
      chars_inj value otherValue valueProper otherValueProper ended otherEnded values
    -- The tails have a comma first or the bracket, and must agree about that.
    cases parts with
    | nil =>
      cases otherParts with
      | nil => exact ⟨rfl, (List.cons.inj tails).2⟩
      | cons part otherParts =>
        have bracket : closing square = ',' := (List.cons.inj tails).1
        cases square <;> exact absurd bracket (by decide)
    | cons part parts =>
      cases otherParts with
      | nil =>
        have bracket : ',' = closing square := (List.cons.inj tails).1
        cases square <;> exact absurd bracket (by decide)
      | cons otherPart otherParts =>
        have inner := (List.cons.inj (List.cons.inj tails).2).2
        obtain ⟨sameParts, rests⟩ := partsChars_inj square (part :: parts)
          (otherPart :: otherParts) partsProper otherPartsProper inner
        exact ⟨by rw [sameParts], rests⟩

end

end Form

end Oxide
