/-
This file says what a quoted text means as a string literal of the written language. Between the
quotes of such a literal every character stands for itself, or for another one with a backslash
before it. The backslash knows seven letters, two hexadecimal digits below 80 and any code point in
braces. Quoting has three more kinds of escapes, which mean nothing there: the letters of four
control characters, and code points by four or by eight digits without braces. So a quoted text is
read as the text that it was made from, or it is no literal at all.
-/

import Mathlib.Data.List.Nodup
import Oxide.Token

namespace Oxide.Literal

/-! ### String literals -/

/-- The value of a hexadecimal digit. -/
def hexValue? (c : Char) : Option Nat :=
  if c.isDigit then some (c.toNat - '0'.toNat)
  else if 'a' ≤ c ∧ c ≤ 'f' then some (c.toNat - 'a'.toNat + 10)
  else if 'A' ≤ c ∧ c ≤ 'F' then some (c.toNat - 'A'.toNat + 10)
  else none

/-- The number that hexadecimal digits spell. -/
def hexNumber? (digits : List Char) : Option Nat :=
  digits.foldlM (fun number c => (hexValue? c).map (16 * number + ·)) 0

/-- The letters that stand for a character behind a backslash. -/
def letterEscapes : List (Char × Char) :=
  [('n', '\n'), ('r', '\r'), ('t', '\t'), ('\\', '\\'), ('0', '\x00'), ('\x22', '\x22'),
    ('\x27', '\x27')]

/-- What can stand behind a backslash. -/
def escapeMarks : List Char := 'x' :: 'u' :: letterEscapes.map Prod.fst

/-- `Spells spelling c` holds if the spelling stands for the character between the quotes of a
literal. -/
inductive Spells : List Char → Char → Prop where
  | itself {c : Char} (plain : c ∉ ['\x22', '\\', '\r']) : Spells [c] c
  | letter {letter c : Char} (known : (letter, c) ∈ letterEscapes) : Spells ['\\', letter] c
  | ascii {high low c : Char} (known : hexNumber? [high, low] = some c.toNat)
      (small : c.toNat < 0x80) : Spells ['\\', 'x', high, low] c
  /-- A digit and up to five more in braces, with underlines behind any of them. -/
  | codePoint {first c : Char} {digits : List Char} (few : (digits.filter (· ≠ '_')).length ≤ 5)
      (known : hexNumber? (first :: digits.filter (· ≠ '_')) = some c.toNat) :
      Spells ('\\' :: 'u' :: '\x7b' :: first :: (digits ++ ['\x7d'])) c

/-- `SpellsAll spelling characters` holds if the spelling is put together from spellings of the
characters. -/
inductive SpellsAll : List Char → List Char → Prop where
  | nil : SpellsAll [] []
  | cons {front rest characters : List Char} {c : Char} (first : Spells front c)
      (later : SpellsAll rest characters) : SpellsAll (front ++ rest) (c :: characters)

/-- Whether a spelling is a string literal for the text. -/
def IsFor (spelling text : String) : Prop :=
  ∃ inner, spelling.toList = '\x22' :: (inner ++ ['\x22']) ∧ SpellsAll inner text.toList

namespace Spells

variable {front rest later : List Char} {c other : Char}

theorem of_plain (spelled : Spells front other) (same : front ++ rest = c :: later)
    (plain : c ≠ '\\') : other = c ∧ rest = later := by
  cases spelled with
  | itself =>
    cases same
    exact ⟨rfl, rfl⟩
  | letter => exact absurd (List.cons.inj same).1.symm plain
  | ascii => exact absurd (List.cons.inj same).1.symm plain
  | codePoint => exact absurd (List.cons.inj same).1.symm plain

/-- A backslash has a letter, two digits or a brace behind it. -/
theorem of_backslash (spelled : Spells front other) (same : front ++ rest = '\\' :: c :: later) :
    (c, other) ∈ letterEscapes ∧ rest = later ∨
      c = 'x' ∧ (∃ high low, later = high :: low :: rest ∧
        hexNumber? [high, low] = some other.toNat) ∨
      c = 'u' ∧ later.head? = some '\x7b' := by
  cases spelled with
  | itself plain =>
    cases same
    exact absurd plain (by decide)
  | letter known =>
    cases same
    exact .inl ⟨known, rfl⟩
  | ascii known _ =>
    cases same
    exact .inr (.inl ⟨rfl, _, _, rfl, known⟩)
  | codePoint _ _ =>
    cases same
    exact .inr (.inr ⟨rfl, rfl⟩)

theorem mem_escapeMarks (spelled : Spells front other)
    (same : front ++ rest = '\\' :: c :: later) : c ∈ escapeMarks := by
  obtain ⟨known, _⟩ | ⟨rfl, _⟩ | ⟨rfl, _⟩ := spelled.of_backslash same
  · exact List.mem_cons_of_mem _ (List.mem_cons_of_mem _ (List.mem_map_of_mem known))
  · decide
  · decide

theorem ne_nil (spelled : Spells front other) : front ≠ [] := by
  cases spelled <;> exact List.cons_ne_nil _ _

end Spells

/-! ### Characters -/

/-- The characters that quoting writes by a letter which literals do not know. -/
def foreignLetters : List Char := ['\x07', '\x08', '\x0b', '\x0c']

/-- Whether quoting and literals agree on how the character is spelled: beyond ASCII it has to be
printable. -/
def isShared (c : Char) : Bool :=
  if c.toNat < 0x80 then !foreignLetters.contains c else Text.isPrintable c

/-- The ways in which a character is written between quotes. -/
inductive Quoting (c : Char) : List Char → Prop where
  | itself (printable : Text.isPrintable c) (plain : c ∉ ['\x22', '\\', '\r']) : Quoting c [c]
  | letter {letter : Char} (known : (letter, c) ∈ letterEscapes) : Quoting c ['\\', letter]
  | ascii {high low : Char} (known : hexNumber? [high, low] = some c.toNat)
      (small : c.toNat < 0x80) (shared : isShared c) : Quoting c ['\\', 'x', high, low]
  | unknown {mark : Char} {rest : List Char} (foreign : ¬ isShared c)
      (unknown : mark ∉ escapeMarks) : Quoting c ('\\' :: mark :: rest)
  | unbraced {digit : Char} {rest : List Char} (foreign : ¬ isShared c)
      (unbraced : digit ≠ '\x7b') : Quoting c ('\\' :: 'u' :: digit :: rest)

/-- The letters for control characters are those of literals, or unknown to them. -/
theorem quoting_controlLetter {c letter : Char} (known : Text.controlLetter? c = some letter) :
    Quoting c ['\\', letter] := by
  unfold Text.controlLetter? at known
  split at known
  all_goals cases known
  all_goals
    rename_i number
    obtain rfl := (Char.ofNat_toNat c).symm.trans (congrArg Char.ofNat number)
  · exact .unknown (by decide) (by decide)
  · exact .unknown (by decide) (by decide)
  · exact .unknown (by decide) (by decide)
  · exact .letter (by decide)
  · exact .letter (by decide)
  · exact .letter (by decide)
  · exact .unknown (by decide) (by decide)

theorem hexNumber?_hexDigits {n : Nat} (small : n < 0x80) :
    hexNumber? (Text.hexDigits 2 n) = some n := by
  have all : ∀ n < 0x80, hexNumber? (Text.hexDigits 2 n) = some n := by decide
  exact all n small

theorem digitChar_ne_brace (n : Nat) : Nat.digitChar (n % 16) ≠ '\x7b' := by
  have all : ∀ n < 16, Nat.digitChar n ≠ '\x7b' := by decide
  exact all _ (Nat.mod_lt n (by decide))

/-- No control character is shown as it is. -/
theorem not_isPrintable_of_mem {c : Char} (control : c ∈ '\r' :: foreignLetters) :
    Text.isPrintable c = false := by
  have all : ('\r' :: foreignLetters).all (!Text.isPrintable ·) := by decide +kernel
  exact Bool.not_eq_true' _ ▸ List.all_eq_true.mp all c control

theorem quoting_quoteChar (c : Char) : Quoting c (Text.quoteChar c) := by
  rw [Text.quoteChar]
  by_cases marked : c = '\x22' ∨ c = '\\'
  · rw [if_pos marked]
    obtain rfl | rfl := marked
    · exact .letter (by decide)
    · exact .letter (by decide)
  rw [if_neg marked]
  by_cases printable : Text.isPrintable c
  · rw [if_pos printable]
    refine .itself printable ?_
    simp only [List.mem_cons, List.not_mem_nil, or_false, not_or] at marked ⊢
    refine ⟨marked.1, marked.2, ?_⟩
    rintro rfl
    rw [not_isPrintable_of_mem List.mem_cons_self] at printable
    cases printable
  rw [if_neg printable]
  cases lettering : Text.controlLetter? c with
  | some letter => exact quoting_controlLetter lettering
  | none =>
    by_cases small : c.toNat < 0x80
    · simp only [if_pos small]
      have lettered : foreignLetters.all (Text.controlLetter? · |>.isSome) := by decide
      refine .ascii (hexNumber?_hexDigits small) small ?_
      rw [isShared, if_pos small, Bool.not_eq_true', List.contains_eq_mem, decide_eq_false_iff_not]
      intro foreign
      have isSome := List.all_eq_true.mp lettered c foreign
      rw [lettering] at isSome
      cases isSome
    · simp only [if_neg small]
      have foreign : ¬ isShared c := by rwa [isShared, if_neg small]
      split
      · exact .unbraced foreign (digitChar_ne_brace _)
      · exact .unknown foreign (by decide)

namespace Quoting

variable {c : Char} {spelling : List Char}

/-- A character on which quoting and literals agree is spelled as in a literal. -/
theorem spells (quoting : Quoting c spelling) (shared : isShared c) : Spells spelling c := by
  cases quoting with
  | itself _ plain => exact .itself plain
  | letter known => exact .letter known
  | ascii known small _ => exact .ascii known small
  | unknown foreign _ => exact absurd shared foreign
  | unbraced foreign _ => exact absurd shared foreign

theorem ne_nil (quoting : Quoting c spelling) : spelling ≠ [] := by
  cases quoting <;> exact List.cons_ne_nil _ _

/-- Where a character was written, nothing but that character is read, if anything is. -/
theorem unique {front rest later : List Char} {other : Char} (quoting : Quoting c spelling)
    (spelled : Spells front other) (same : front ++ rest = spelling ++ later) :
    isShared c ∧ other = c ∧ rest = later := by
  cases quoting with
  | itself printable plain =>
    have notBackslash : c ≠ '\\' := by
      rintro rfl
      exact plain (by decide)
    obtain ⟨rfl, rfl⟩ := spelled.of_plain same notBackslash
    refine ⟨?_, rfl, rfl⟩
    unfold isShared
    split
    · rw [Bool.not_eq_true', List.contains_eq_mem, decide_eq_false_iff_not]
      intro foreign
      rw [not_isPrintable_of_mem (List.mem_cons_of_mem _ foreign)] at printable
      cases printable
    · exact printable
  | letter known =>
    have shared : letterEscapes.all (isShared ·.2) := by decide
    have apart : (letterEscapes.map Prod.fst).Nodup := by decide
    refine ⟨List.all_eq_true.mp shared _ known, ?_⟩
    obtain ⟨otherKnown, rfl⟩ | ⟨rfl, _⟩ | ⟨rfl, _⟩ := spelled.of_backslash same
    · have samePair := List.inj_on_of_nodup_map apart otherKnown known rfl
      exact ⟨congrArg Prod.snd samePair, rfl⟩
    · exact absurd known (by simp [letterEscapes])
    · exact absurd known (by simp [letterEscapes])
  | ascii known small shared =>
    obtain ⟨otherKnown, _⟩ | ⟨_, high, low, equal, otherKnown⟩ | ⟨impossible, _⟩ :=
      spelled.of_backslash same
    · exact absurd otherKnown (by simp [letterEscapes])
    · cases equal
      rw [known] at otherKnown
      exact ⟨shared, Char.toNat_inj.mp (Option.some.inj otherKnown).symm, rfl⟩
    · exact absurd impossible (by decide)
  | unknown _ unknown => exact absurd (spelled.mem_escapeMarks same) unknown
  | unbraced _ unbraced =>
    obtain ⟨otherKnown, _⟩ | ⟨impossible, _⟩ | ⟨_, braced⟩ := spelled.of_backslash same
    · exact absurd otherKnown (by simp [letterEscapes])
    · exact absurd impossible (by decide)
    · exact absurd (Option.some.inj braced) unbraced

end Quoting

/-! ### Texts -/

theorem spellsAll_nil_iff {characters : List Char} : SpellsAll [] characters ↔ characters = [] := by
  constructor
  · intro spelled
    generalize same : ([] : List Char) = inner at spelled
    cases spelled with
    | nil => rfl
    | cons first _ => exact absurd (List.append_eq_nil_iff.mp same.symm).1 first.ne_nil
  · rintro rfl
    exact .nil

/-- Reading on behind the spelling of one character. -/
theorem spellsAll_quoteChar_iff {c : Char} {rest characters : List Char} :
    SpellsAll (Text.quoteChar c ++ rest) characters ↔
      isShared c ∧ ∃ later, characters = c :: later ∧ SpellsAll rest later := by
  have quoting := quoting_quoteChar c
  constructor
  · intro spelled
    generalize same : Text.quoteChar c ++ rest = inner at spelled
    cases spelled with
    | nil => exact absurd (List.append_eq_nil_iff.mp same).1 quoting.ne_nil
    | cons first later =>
      obtain ⟨shared, rfl, rfl⟩ := quoting.unique first same.symm
      exact ⟨shared, _, rfl, later⟩
  · rintro ⟨shared, later, rfl, restSpelled⟩
    exact .cons (quoting.spells shared) restSpelled

/-- The spellings of a row of characters are read as that row or not at all. -/
theorem spellsAll_flatMap_iff {text characters : List Char} :
    SpellsAll (text.flatMap Text.quoteChar) characters ↔
      characters = text ∧ ∀ c ∈ text, isShared c := by
  induction text generalizing characters with
  | nil => rw [List.flatMap_nil, spellsAll_nil_iff, and_iff_left (List.forall_mem_nil _)]
  | cons c rest inductionHypothesis =>
    rw [List.flatMap_cons, spellsAll_quoteChar_iff, List.forall_mem_cons]
    constructor
    · rintro ⟨shared, later, rfl, restSpelled⟩
      obtain ⟨rfl, restShared⟩ := inductionHypothesis.mp restSpelled
      exact ⟨rfl, shared, restShared⟩
    · rintro ⟨rfl, shared, restShared⟩
      exact ⟨shared, rest, rfl, inductionHypothesis.mpr ⟨rfl, restShared⟩⟩

/-- A string literal stands for the text that it was made from and for nothing else, if quoting and
literals agree on all of its characters; otherwise it stands for nothing. -/
theorem str_isFor_iff (stream : Stream) (text : String) :
    ∃ spelling, stream.str text = stream ++ [{ kind := .literal, text := spelling }] ∧
      ∀ value, IsFor spelling value ↔ value = text ∧ ∀ c ∈ text.toList, isShared c := by
  refine ⟨Text.quote text, rfl, fun value => ?_⟩
  have spelled : (Text.quote text).toList =
      '\x22' :: (text.toList.flatMap Text.quoteChar ++ ['\x22']) := by
    rw [Text.quote, String.toList_ofList]
    rfl
  calc IsFor (Text.quote text) value
    _ ↔ SpellsAll (text.toList.flatMap Text.quoteChar) value.toList := by
      rw [IsFor, spelled]
      constructor
      · rintro ⟨inner, same, spells⟩
        rwa [List.append_cancel_right (List.cons.inj same).2]
      · exact fun spells => ⟨_, rfl, spells⟩
    _ ↔ value.toList = text.toList ∧ ∀ c ∈ text.toList, isShared c := spellsAll_flatMap_iff
    _ ↔ value = text ∧ ∀ c ∈ text.toList, isShared c := by rw [String.toList_inj]

end Oxide.Literal
