/-
This file says how far names stay apart when they are escaped. Every name becomes an identifier
that is no word of the written language. A raw identifier cannot be mistaken for anything else,
because no name holds its sign; but the five names that cannot be raw get an underscore at their
end, and then they look like the names that have it already. These are the only names that meet.
-/

import Oxide.Token

namespace Oxide

/-! ### Identifiers -/

/-- The characters of names. Both languages take them from one standard, of which only the part for
ASCII is laid down here: letters, digits and the underscore. -/
structure Alphabet where
  starts : Char → Bool
  continues : Char → Bool
  starts_ascii : ∀ c, c.toNat < 0x80 → starts c = c.isAlpha
  continues_ascii : ∀ c, c.toNat < 0x80 → continues c = (c.isAlphanum || c = '_')

namespace Alphabet

/-- The alphabet without any character beyond ASCII. -/
def ascii : Alphabet where
  starts := Char.isAlpha
  continues c := c.isAlphanum || c = '_'
  starts_ascii _ _ := rfl
  continues_ascii _ _ := rfl

/-- Whether a text is a name of the language that is read. -/
def isName (alphabet : Alphabet) (text : String) : Bool :=
  match text.toList with
  | [] => false
  | first :: rest => (alphabet.starts first || first = '_') && rest.all alphabet.continues

end Alphabet

/-- The words of the written language, in its edition of 2021, that are no identifiers: its
keywords, those that it keeps for later, and the underscore. -/
def keptWords : List String := [
  "as", "break", "const", "continue", "crate", "else", "enum", "extern", "false", "fn", "for",
  "if", "impl", "in", "let", "loop", "match", "mod", "move", "mut", "pub", "ref", "return", "self",
  "Self", "static", "struct", "super", "trait", "true", "type", "unsafe", "use", "where", "while",
  "async", "await", "dyn", "abstract", "become", "box", "do", "final", "macro", "override", "priv",
  "try", "typeof", "unsized", "virtual", "yield", "_"]

/-- The words among them that cannot be raw identifiers either. -/
def neverRaw : List String := ["crate", "self", "Self", "super", "_"]

/-- `Identifies alphabet text name` holds if the text is an identifier of the written language and
stands for the name. The mark of a raw identifier is no part of its name. -/
inductive Alphabet.Identifies (alphabet : Alphabet) : String → String → Prop where
  | plain {name : String} (isName : alphabet.isName name) (free : name ∉ keptWords) :
      Identifies alphabet name name
  | raw {name : String} (isName : alphabet.isName name) (free : name ∉ neverRaw) :
      Identifies alphabet ("r#" ++ name) name

/-! ### Escaping -/

/-- The ways in which a name is escaped. -/
inductive Escaping (name : String) : String → Prop where
  | underscored (bad : name ∈ neverRaw) : Escaping name (name ++ "_")
  | raw (kept : name ∈ keptWords) (rawable : name ∉ neverRaw) : Escaping name ("r#" ++ name)
  | itself (free : name ∉ keptWords) : Escaping name name

theorem escaping_identName (name : String) : Escaping name (identName name) := by
  have reserved : ∀ word ∈ reservedNames, word ∈ neverRaw := by decide
  have rawable : ∀ word ∈ neverRaw, word ∈ reservedNames := by decide
  have kept : ∀ word ∈ keywords, word ∈ keptWords := by decide
  have known : ∀ word ∈ keptWords, word ∈ reservedNames ∨ word ∈ keywords := by decide
  rw [identName]
  by_cases isReserved : reservedNames.contains name
  · rw [if_pos isReserved]
    exact .underscored (reserved name (List.contains_iff_mem.mp isReserved))
  rw [if_neg isReserved]
  rw [List.contains_iff_mem] at isReserved
  by_cases keyword : isKeyword name
  · rw [if_pos keyword]
    exact .raw (kept name (List.contains_iff_mem.mp keyword)) fun bad =>
      isReserved (rawable name bad)
  · rw [if_neg keyword]
    refine .itself fun isKept => ?_
    rcases known name isKept with amongReserved | amongKeywords
    · exact isReserved amongReserved
    · exact keyword (List.contains_iff_mem.mpr amongKeywords)

/-- A raw identifier is never the same as a word with an underscore. -/
theorem Escaping.raw_ne_underscored {name word : String} (bad : word ∈ neverRaw) :
    "r#" ++ name ≠ word ++ "_" := by
  intro equal
  have starts : ∀ word ∈ neverRaw, (word ++ "_").toList.take 2 ≠ ['r', '#'] := by decide
  refine starts word bad ?_
  rw [← equal, String.toList_append]
  rfl

theorem Escaping.not_mem_keptWords {name text : String} (escaping : Escaping name text) :
    text ∉ keptWords := by
  cases escaping with
  | underscored bad =>
    have free : ∀ word ∈ neverRaw, word ++ "_" ∉ keptWords := by decide
    exact free name bad
  | raw =>
    intro member
    have starts : ∀ word ∈ keptWords, word.toList.take 2 ≠ ['r', '#'] := by decide
    refine starts _ member ?_
    rw [String.toList_append]
    rfl
  | itself free => exact free

/-- What is escaped already stays as it is. -/
theorem identName_identName (name : String) : identName (identName name) = identName name := by
  have free := (escaping_identName name).not_mem_keptWords
  have neverRawKept : ∀ word ∈ neverRaw, word ∈ keptWords := by decide
  generalize identName name = text at free ⊢
  generalize known : identName text = escaped
  have escaping := known ▸ escaping_identName text
  cases escaping with
  | underscored bad => exact absurd (neverRawKept text bad) free
  | raw kept => exact absurd kept free
  | itself => rfl

theorem Escaping.eq_or_eq {first second text : String} (firstEscaping : Escaping first text)
    (secondEscaping : Escaping second text) : first = second ∨ text = second ∨ text = first := by
  cases firstEscaping with
  | itself => exact .inr (.inr rfl)
  | underscored bad =>
    generalize written : first ++ "_" = text at secondEscaping ⊢
    cases secondEscaping with
    | itself => exact .inr (.inl rfl)
    | underscored => exact .inl ((String.append_left_inj "_").mp written)
    | raw => exact absurd written.symm (raw_ne_underscored bad)
  | raw kept rawable =>
    generalize written : "r#" ++ first = text at secondEscaping ⊢
    cases secondEscaping with
    | itself => exact .inr (.inl rfl)
    | underscored bad => exact absurd written (raw_ne_underscored bad)
    | raw => exact .inl ((String.append_right_inj "r#").mp written)

/-- Two texts are escaped alike only if one of them is what the other one is escaped to. -/
theorem identName_eq_iff {first second : String} :
    identName first = identName second ↔
      first = second ∨ identName first = second ∨ identName second = first := by
  constructor
  · intro equal
    have secondEscaping := escaping_identName second
    rw [← equal] at secondEscaping ⊢
    exact (escaping_identName first).eq_or_eq secondEscaping
  · rintro (rfl | rfl | rfl)
    · rfl
    · exact (identName_identName first).symm
    · exact identName_identName second

/-! ### Names -/

namespace Alphabet

variable {alphabet : Alphabet}

theorem isName_append_underscore {name : String} (isName : alphabet.isName name) :
    alphabet.isName (name ++ "_") := by
  unfold Alphabet.isName at isName ⊢
  cases characters : name.toList with
  | nil => simp [characters] at isName
  | cons first rest =>
    rw [characters] at isName
    rw [String.toList_append, characters]
    have underscore : "_".toList.all alphabet.continues := by
      simp [alphabet.continues_ascii '_' (by decide)]
    simp only [List.cons_append, List.all_append, Bool.and_eq_true] at isName ⊢
    exact ⟨isName.1, isName.2, underscore⟩

/-- The mark of a raw identifier is in no name. -/
theorem not_isName_raw (name : String) : ¬ alphabet.isName ("r#" ++ name) := by
  have mark : alphabet.continues '#' = false := by
    rw [alphabet.continues_ascii '#' (by decide)]
    decide
  unfold Alphabet.isName
  rw [String.toList_append]
  simp [mark]

/-- An identifier stands for one name. -/
theorem Identifies.unique {text name other : String} (identifies : alphabet.Identifies text name)
    (again : alphabet.Identifies text other) : name = other := by
  cases identifies with
  | plain isName free =>
    cases again with
    | plain => rfl
    | raw => exact absurd isName (not_isName_raw other)
  | raw =>
    generalize written : "r#" ++ name = text at again
    cases again with
    | plain isName => exact absurd (written ▸ isName) (not_isName_raw name)
    | raw => exact (String.append_right_inj "r#").mp written

/-- Every name is escaped to an identifier. What it stands for is escaped to the same one, though it
need not be the name itself. -/
theorem exists_identifies {name : String} (isName : alphabet.isName name) :
    ∃ resolved, alphabet.Identifies (identName name) resolved ∧
      identName resolved = identName name := by
  have again := identName_identName name
  have escaping := escaping_identName name
  generalize known : identName name = text at again escaping
  have free := escaping.not_mem_keptWords
  cases escaping with
  | underscored => exact ⟨_, .plain (isName_append_underscore isName) free, again⟩
  | raw kept rawable => exact ⟨name, .raw isName rawable, known⟩
  | itself => exact ⟨name, .plain isName free, known⟩

end Alphabet

/-- `Shadows name other` holds if the first name cannot be raw and the other one is the first with
an underscore at its end. -/
def Shadows (name other : String) : Prop :=
  name ∈ neverRaw ∧ other = name ++ "_"

theorem Shadows.identName_eq {name other : String} (shadows : Shadows name other) :
    identName name = other := by
  have underscored : ∀ word ∈ neverRaw, identName word = word ++ "_" := by decide
  rw [shadows.2]
  exact underscored name shadows.1

theorem eq_or_shadows {alphabet : Alphabet} {name other : String} (isName : alphabet.isName other)
    (known : identName name = other) : name = other ∨ Shadows name other := by
  have escaping := known ▸ escaping_identName name
  cases escaping with
  | underscored bad => exact .inr ⟨bad, rfl⟩
  | raw => exact absurd isName (Alphabet.not_isName_raw name)
  | itself => exact .inl rfl

/-- All names are escaped to identifiers, none of them a word of the language. Two identifiers are
the same, in their text as in what they stand for, if and only if the names are the same or one of
them cannot be raw and the other one is it with an underscore. -/
theorem identifiers_eq_iff (alphabet : Alphabet) {first second : String}
    (firstIsName : alphabet.isName first) (secondIsName : alphabet.isName second) :
    ∃ firstResolved secondResolved,
      alphabet.Identifies (identName first) firstResolved ∧
      alphabet.Identifies (identName second) secondResolved ∧
      identName first ∉ keptWords ∧ identName second ∉ keptWords ∧
      (firstResolved = secondResolved ↔ identName first = identName second) ∧
      (identName first = identName second ↔
        first = second ∨ Shadows first second ∨ Shadows second first) := by
  obtain ⟨firstResolved, firstIdentifies, firstAgain⟩ := Alphabet.exists_identifies firstIsName
  obtain ⟨secondResolved, secondIdentifies, secondAgain⟩ := Alphabet.exists_identifies secondIsName
  refine ⟨firstResolved, secondResolved, firstIdentifies, secondIdentifies,
    (escaping_identName first).not_mem_keptWords, (escaping_identName second).not_mem_keptWords,
    ⟨fun equal => ?_, fun equal => ?_⟩, ⟨fun equal => ?_, fun related => ?_⟩⟩
  · rw [← firstAgain, ← secondAgain, equal]
  · exact firstIdentifies.unique (equal ▸ secondIdentifies)
  · rcases identName_eq_iff.mp equal with same | known | known
    · exact .inl same
    · exact (eq_or_shadows secondIsName known).imp id .inl
    · exact (eq_or_shadows firstIsName known).imp Eq.symm .inr
  · rw [identName_eq_iff]
    exact related.imp id fun shadows => shadows.imp Shadows.identName_eq Shadows.identName_eq

theorem identifiers_eq_iff_match_underscore :
    Alphabet.ascii.isName "match" ∧ Alphabet.ascii.isName "_" ∧
      ∃ firstResolved secondResolved,
        Alphabet.ascii.Identifies (identName "match") firstResolved ∧
        Alphabet.ascii.Identifies (identName "_") secondResolved ∧
        identName "match" ∉ keptWords ∧ identName "_" ∉ keptWords ∧
        (firstResolved = secondResolved ↔ identName "match" = identName "_") ∧
        (identName "match" = identName "_" ↔
          "match" = "_" ∨ Shadows "match" "_" ∨ Shadows "_" "match") :=
  ⟨by decide, by decide, identifiers_eq_iff Alphabet.ascii (by decide) (by decide)⟩

/-- Names that differ need not be escaped to identifiers that differ. -/
theorem distinct_names_meet :
    ¬ ∀ first second, Alphabet.ascii.isName first → Alphabet.ascii.isName second →
      first ≠ second → identName first ≠ identName second := by
  intro apart
  exact apart "self" "self_" (by decide) (by decide) (by decide) (by decide)

end Oxide
