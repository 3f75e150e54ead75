/-
This file proves that the words of a text never run together. `Spelled` says what it is for a text
to spell a stream: the tokens in their order, each with a gap of blanks before it, where the gap
between two words is not empty. The layout leaves out such a gap only behind a joint token, and the
stream of a module has no joint word in front of a word.
-/

import Oxide.Proofs.Delimiters
import Oxide.Proofs.Marks

namespace Oxide

open Text

/-! ### Spelling -/

/-- A text of spaces, tabs and line ends. -/
def Blank (gap : Bytes) : Prop :=
  ∀ byte ∈ gap, byte ∈ Layout.space ++ Layout.indent 1 ++ Layout.newline

/-- What a token looks like in a text: a documentation text becomes comment lines, a semicolon may
be left out, and everything else is written as it is. -/
inductive Spells (token : Token) : Bytes → Prop where
  | itself (spoken : token.kind ≠ .doc) : Spells token (utf8 token.text)
  | omitted (semicolon : token.isPunct ";") : Spells token []
  | comment (isDoc : token.kind = .doc) (depth : Nat) :
      Spells token (Layout.comment depth token.text)

/-- A text that spells a stream with blanks before, between and behind the tokens, of which there
are some between two words; the flag says whether a word stands right before the stream. -/
inductive Spelled : Bool → Stream → Bytes → Prop where
  | nil {afterWord : Bool} {gap : Bytes} (blank : Blank gap) : Spelled afterWord [] gap
  | cons {afterWord : Bool} {token : Token} {rest : Stream} {gap own text : Bytes}
      (blank : Blank gap) (spells : Spells token own)
      (apart : afterWord → token.isWord → gap ≠ [])
      (later : Spelled token.isWord rest text) :
      Spelled afterWord (token :: rest) (gap ++ own ++ text)

namespace Blank

theorem nil : Blank [] := List.forall_mem_nil _

theorem append {first second : Bytes} (firstBlank : Blank first) (secondBlank : Blank second) :
    Blank (first ++ second) :=
  List.forall_mem_append.mpr ⟨firstBlank, secondBlank⟩

theorem space : Blank Layout.space := by
  intro byte member
  exact List.mem_append_left _ (List.mem_append_left _ member)

theorem newline : Blank Layout.newline := fun _ member => List.mem_append_right _ member

theorem indent (depth : Nat) : Blank (Layout.indent depth) := by
  intro byte member
  rw [List.eq_of_mem_replicate member]
  decide

theorem separation (depth : Nat) (rest : List Token) : Blank (Layout.separation depth rest) := by
  unfold Layout.separation
  split
  · exact newline
  · exact nil

theorem lineEnd (depth : Nat) (rest : List Token) : Blank (Layout.lineEnd depth rest) := by
  unfold Layout.lineEnd
  split
  · exact nil
  · exact newline.append (separation depth rest)

theorem ite {condition : Prop} [Decidable condition] {first second : Bytes}
    (firstBlank : Blank first) (secondBlank : Blank second) :
    Blank (if condition then first else second) := by
  split
  · exact firstBlank
  · exact secondBlank

end Blank

/-- Further blanks in front of a text do no harm. -/
theorem Spelled.indented {afterWord : Bool} {stream : Stream} {gap text : Bytes}
    (blank : Blank gap) (spelled : Spelled afterWord stream text) :
    Spelled afterWord stream (gap ++ text) := by
  cases spelled with
  | nil restBlank => exact .nil (blank.append restBlank)
  | cons restBlank spells apart later =>
    rw [← List.append_assoc, ← List.append_assoc]
    refine .cons (blank.append restBlank) spells (fun after word => ?_) later
    exact List.append_ne_nil_of_right_ne_nil _ (apart after word)

namespace Layout

variable {token : Token}

theorem isWord_eq_false_of_isPunct {text : String} (isPunct : token.isPunct text) :
    token.isWord = false := by
  simp [Token.isWord, (kind_text_of_isPunct isPunct).1]

theorem spells_of_isPunct {text : String} (isPunct : token.isPunct text) :
    Spells token (utf8 token.text) := by
  refine .itself ?_
  rw [(kind_text_of_isPunct isPunct).1]
  decide

/-- Two words that are not joint have a space between them. -/
theorem spaced_of_isWord {previous next : Token} (previousWord : previous.isWord)
    (nextWord : next.isWord) (loose : previous.joint = false) : spaced previous next := by
  have notPunct {word : Token} (isWord : word.isWord) : word.kind ≠ .punct := by
    intro isPunct
    simp [Token.isWord, isPunct] at isWord
  simp [spaced, loose, Token.isPunct, notPunct previousWord, notPunct nextWord]

/-- A token that is no word needs no gap, and neither does what follows it. -/
theorem spelled_of_not_isWord {afterWord : Bool} {rest : Stream} {gap own text : Bytes}
    (noWord : token.isWord = false) (blank : Blank gap) (spells : Spells token own)
    (later : Spelled false rest text) : Spelled afterWord (token :: rest) (gap ++ own ++ text) := by
  refine .cons blank spells (fun _ word => ?_) (noWord ▸ later)
  rw [noWord] at word
  cases word

/-- What is laid out spells the stream if all neighbours fit. -/
theorem spelled_of_lays {depth : Nat} {fresh afterWord : Bool} {previous : Token} {stream : Stream}
    {text : Bytes} (chain : stream.IsChain Token.Fits)
    (state : afterWord → fresh = false ∧ previous.isWord ∧
      ∀ next ∈ stream.head?, previous.Fits next)
    (lays : Lays depth fresh previous stream text) : Spelled afterWord stream text := by
  -- Behind what is no word there is nothing to ask of the state.
  have idle {state : Prop} (after : false) : state := absurd after Bool.false_ne_true
  induction lays generalizing afterWord with
  | done => exact .nil (.ite .nil .newline)
  | @comment depth _ _ token _ _ role _ inductionHypothesis =>
    have isDoc := roleOf_eq_comment.mp role
    have noWord : token.isWord = false := by simp [Token.isWord, isDoc]
    rw [← List.nil_append (comment _ _)]
    exact spelled_of_not_isWord noWord .nil (.comment isDoc depth)
      (inductionHypothesis chain.tail idle)
  | opening role _ inductionHypothesis =>
    have isPunct := roleOf_eq_opening.mp role
    exact spelled_of_not_isWord (isWord_eq_false_of_isPunct isPunct) (.ite .nil .space)
      (spells_of_isPunct isPunct) (.indented .newline (inductionHypothesis chain.tail idle))
  | closing role _ _ inductionHypothesis =>
    have isPunct := roleOf_eq_closing.mp role
    exact spelled_of_not_isWord (isWord_eq_false_of_isPunct isPunct)
      (.append (.ite .nil .newline) (.indent _)) (spells_of_isPunct isPunct)
      (.indented (.lineEnd _ _) (inductionHypothesis chain.tail idle))
  | @closingDropping outer _ _ _ _ rest _ role dropped _ inductionHypothesis =>
    have isPunct := roleOf_eq_closing.mp role
    -- The semicolon that is left out has an empty gap and an empty spelling.
    have later : Spelled false _ _ := inductionHypothesis chain.tail.tail idle
    have semicolon : Spelled false _ _ := spelled_of_not_isWord
      (isWord_eq_false_of_isPunct dropped) .nil (.omitted dropped)
      (later.indented (.lineEnd outer rest))
    exact spelled_of_not_isWord (isWord_eq_false_of_isPunct isPunct)
      (.append (.ite .nil .newline) (.indent _)) (spells_of_isPunct isPunct) semicolon
  | terminator role _ inductionHypothesis =>
    have isPunct := roleOf_eq_terminator.mp role
    exact spelled_of_not_isWord (isWord_eq_false_of_isPunct isPunct) (.ite (.indent _) .nil)
      (spells_of_isPunct isPunct)
      (.indented (.append .newline (.separation _ _)) (inductionHypothesis chain.tail idle))
  | @word depth fresh previous token rest _ role _ inductionHypothesis =>
    have spoken : token.kind ≠ .doc := fun isDoc => by
      rw [roleOf_eq_comment.mpr isDoc] at role
      cases role
    refine .cons (.ite (.indent _) (.ite .space .nil)) (.itself spoken) ?_
      (inductionHypothesis chain.tail ?_)
    · intro after isWord
      obtain ⟨rfl, previousWord, fits⟩ := state after
      have loose := (fits token rfl).apart previousWord isWord
      simp [spaced_of_isWord previousWord isWord loose, space]
    · intro isWord
      exact ⟨rfl, isWord, List.isChain_cons.mp chain |>.1⟩

end Layout

/-- In the stream of a module no joint word stands before a word, and its text spells the stream
with a gap between any two words. -/
theorem Lower.module_words_apart {options : Options} {table : Table} {source : Module}
    {stream : Stream} (lowered : (Lower.module options table source).2 = .ok stream) :
    stream.IsChain (fun first second => first.isWord → second.isWord → first.joint = false) ∧
      ∃ text, Layout.layout stream = .ok text ∧ Spelled false stream text := by
  have lined := lined_module lowered
  obtain ⟨text, laid⟩ := Layout.layout_of_matched (matched_module lowered)
  refine ⟨lined.chain.imp fun _ _ fits => fits.apart, text, laid, ?_⟩
  exact Layout.spelled_of_lays lined.chain nofun (Layout.layout_eq_ok_iff.mp laid)

/-- A function in whose stream words follow each other and a word is joint with a parenthesis. -/
theorem Lower.module_words_apart_return :
    let source : Module := ⟨[.functionDef { FunctionOf.empty "f" with
      body := [.ret (.call (.name "g") [.constant (.int "1")] [])] }]⟩
    ∃ stream, (Lower.module {} Table.new source).2 = .ok stream ∧
      stream.IsChain (fun first second => first.isWord → second.isWord → first.joint = false) ∧
      ∃ text, Layout.layout stream = .ok text ∧ Spelled false stream text := by
  intro source
  obtain ⟨stream, lowered⟩ : ∃ stream, (Lower.module {} Table.new source).2 = .ok stream :=
    ⟨_, rfl⟩
  exact ⟨stream, lowered, Lower.module_words_apart lowered⟩

end Oxide
