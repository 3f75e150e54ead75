/-
This file compares what is visible before and after a text is laid out, that is, what is left of it
without its blanks. The layout of a stream adds blanks to the tokens and leaves out nothing but the
semicolons right behind a closing brace. The lines of a documentation text lose blanks only, with
one exception: the common indentation is not measured on a first line that does not start with a
space, but it is cut from that line as well. What is lost is exactly the piece cut off there.
-/

import Mathlib.Data.List.TakeWhile
import Oxide.Proofs.WordSpacing

namespace Oxide

open Text

/-! ### Visible bytes -/

namespace Text

/-- What is left of a text without the given blanks. -/
def visible (blanks text : Bytes) : Bytes :=
  text.filter (· ∉ blanks)

variable {blanks : Bytes}

theorem visible_append (first second : Bytes) :
    visible blanks (first ++ second) = visible blanks first ++ visible blanks second :=
  List.filter_append first second

theorem visible_eq_nil_iff {text : Bytes} :
    visible blanks text = [] ↔ ∀ byte ∈ text, byte ∈ blanks := by
  simp only [visible, List.filter_eq_nil_iff, decide_eq_true_eq, not_not]

theorem visible_reverse (text : Bytes) :
    visible blanks text.reverse = (visible blanks text).reverse :=
  List.filter_reverse

theorem visible_dropWhile {dropped : UInt8 → Bool} (blank : ∀ byte, dropped byte → byte ∈ blanks)
    (text : Bytes) : visible blanks (text.dropWhile dropped) = visible blanks text := by
  have front : visible blanks (text.takeWhile dropped) = [] :=
    visible_eq_nil_iff.mpr fun byte member => blank byte (List.mem_takeWhile_imp member)
  calc visible blanks (text.dropWhile dropped)
      = visible blanks (text.takeWhile dropped) ++ visible blanks (text.dropWhile dropped) := by
        rw [front, List.nil_append]
    _ = visible blanks text := by rw [← visible_append, List.takeWhile_append_dropWhile]

/-- Lines that look the same one by one look the same as a whole. -/
theorem visible_flatten_map {change : Bytes → Bytes} {lines : List Bytes}
    (same : ∀ line ∈ lines, visible blanks (change line) = visible blanks line) :
    visible blanks (lines.map change).flatten = visible blanks lines.flatten := by
  induction lines with
  | nil => rfl
  | cons line rest inductionHypothesis =>
    rw [List.forall_mem_cons] at same
    rw [List.map_cons, List.flatten_cons, List.flatten_cons, visible_append, visible_append,
      same.1, inductionHypothesis same.2]

end Text

/-! ### Documentation texts -/

namespace DocComment

/-- The blanks of a documentation text: spaces, tabs and both parts of a line end. -/
def blanks : Bytes := [0x20, 0x09, 0x0D, 0x0A]

theorem mem_blanks_of_isIndent (byte : UInt8) (isIndent : isIndent byte) : byte ∈ blanks := by
  simp only [DocComment.isIndent, Bool.or_eq_true, decide_eq_true_eq] at isIndent
  rcases isIndent with rfl | rfl <;> decide

theorem mem_blanks_of_isTrailing (byte : UInt8) (isTrailing : isTrailing byte) :
    byte ∈ blanks := by
  simp only [DocComment.isTrailing, Bool.or_eq_true, decide_eq_true_eq] at isTrailing
  rcases isTrailing with isIndent | rfl
  · exact mem_blanks_of_isIndent byte isIndent
  · decide

theorem visible_splitLines (text : Bytes) :
    visible blanks (splitLines text).flatten = visible blanks text := by
  fun_induction splitLines text with
  | case1 => rfl
  | case2 rest inductionHypothesis =>
    rw [List.flatten_cons, List.nil_append, inductionHypothesis]
    rfl
  | case3 byte rest _ line lines equal inductionHypothesis =>
    rw [equal] at inductionHypothesis
    rw [← List.singleton_append (l := rest), visible_append, ← inductionHypothesis,
      ← visible_append]
    rfl
  | case4 byte rest _ equal inductionHypothesis =>
    rw [equal] at inductionHypothesis
    rw [← List.singleton_append (l := rest), visible_append, ← inductionHypothesis,
      ← visible_append]
    rfl

theorem visible_trimEnd (line : Bytes) : visible blanks (trimEnd line) = visible blanks line := by
  rw [trimEnd, visible_reverse, visible_dropWhile mem_blanks_of_isTrailing, visible_reverse,
    List.reverse_reverse]

theorem flatten_dropWhile_isEmpty (lines : List Bytes) :
    (lines.dropWhile List.isEmpty).flatten = lines.flatten := by
  induction lines with
  | nil => rfl
  | cons line rest inductionHypothesis =>
    cases line with
    | nil => exact inductionHypothesis
    | cons byte line => rfl

theorem flatten_reverse_dropWhile_isEmpty (lines : List Bytes) :
    (lines.reverse.dropWhile List.isEmpty).reverse.flatten = lines.flatten := by
  induction lines using List.reverseRecOn with
  | nil => rfl
  | append_singleton rest line inductionHypothesis =>
    rw [List.reverse_concat]
    cases line with
    | nil =>
      rw [List.dropWhile_cons_of_pos rfl, inductionHypothesis, List.flatten_append]
      exact (List.append_nil _).symm
    | cons byte line =>
      rw [List.dropWhile_cons_of_neg Bool.false_ne_true, List.reverse_cons, List.reverse_reverse]

theorem flatten_trimEdges (lines : List Bytes) : (trimEdges lines).flatten = lines.flatten := by
  rw [trimEdges, flatten_reverse_dropWhile_isEmpty, flatten_dropWhile_isEmpty]

/-- The lines of a documentation text before any indentation is cut off. -/
def keptLines (text : Bytes) : List Bytes :=
  trimEdges ((splitLines text).map trimEnd)

theorem visible_keptLines (text : Bytes) :
    visible blanks (keptLines text).flatten = visible blanks text := by
  rw [keptLines, flatten_trimEdges, visible_flatten_map fun line _ => visible_trimEnd line,
    visible_splitLines]

/-! ### The common indentation -/

theorem forall_mem_take_of_le {width : Nat} {line : Bytes} (le : width ≤ indentation line) :
    ∀ byte ∈ line.take width, byte ∈ blanks := by
  have inside : line.take width <+: line.takeWhile isIndent :=
    List.prefix_of_prefix_length_le (List.take_prefix width line) (List.takeWhile_prefix isIndent)
      ((List.length_take_le width line).trans le)
  intro byte member
  exact mem_blanks_of_isIndent byte (List.mem_takeWhile_imp (inside.subset member))

/-- Only blanks are cut from a line that has the indentation. -/
theorem visible_cut {width : Nat} {line : Bytes} (le : width ≤ indentation line) :
    visible blanks (cut width line) = visible blanks line := by
  have front := visible_eq_nil_iff.mpr (forall_mem_take_of_le le)
  unfold cut
  split
  · calc visible blanks (line.drop width)
        = visible blanks (line.take width) ++ visible blanks (line.drop width) := by
          rw [front, List.nil_append]
      _ = visible blanks line := by rw [← visible_append, List.take_append_drop]
  · rfl

theorem commonIndentation_le {lines : List Bytes} {line : Bytes} (member : line ∈ measured lines) :
    commonIndentation lines ≤ indentation line :=
  List.min?_getD_le_of_mem (List.mem_map_of_mem member)

/-- Behind the first line every line is measured, unless it is empty and there is nothing to cut. -/
theorem visible_cut_of_mem {first line : Bytes} {rest : List Bytes} (member : line ∈ rest) :
    visible blanks (cut (commonIndentation (first :: rest)) line) = visible blanks line := by
  obtain rfl | nonempty := eq_or_ne line []
  · simp [cut]
  · refine visible_cut (commonIndentation_le (List.mem_append_right _ ?_))
    exact List.mem_filter.mpr ⟨member, by simpa using nonempty⟩

/-- The piece of the first line that is cut off with the common indentation. -/
def firstCut : List Bytes → Bytes
  | [] => []
  | first :: rest =>
    if commonIndentation (first :: rest) ≤ first.length
      then first.take (commonIndentation (first :: rest)) else []

theorem firstCut_append_cut (first : Bytes) (rest : List Bytes) :
    firstCut (first :: rest) ++ cut (commonIndentation (first :: rest)) first = first := by
  rw [firstCut, cut]
  split
  · exact List.take_append_drop _ first
  · exact List.nil_append first

/-- A first line that starts with a space is measured, so nothing but blanks is cut from it. -/
theorem forall_mem_firstCut {first : Bytes} {rest : List Bytes} (spaced : startsWithSpace first) :
    ∀ byte ∈ firstCut (first :: rest), byte ∈ blanks := by
  have measured : first ∈ measured (first :: rest) := by
    refine List.mem_append_left _ ?_
    rw [if_pos spaced]
    exact List.mem_singleton_self first
  rw [firstCut]
  split
  · exact forall_mem_take_of_le (commonIndentation_le measured)
  · exact List.forall_mem_nil _

theorem visible_flushFirst (lines : List Bytes) :
    visible blanks (flushFirst lines).flatten = visible blanks lines.flatten := by
  cases lines with
  | nil => rfl
  | cons first rest =>
    rw [flushFirst, List.flatten_cons, List.flatten_cons, visible_append, visible_append,
      visible_dropWhile mem_blanks_of_isIndent]

/-- What the lines of a documentation text lack is what is cut from the first line. -/
theorem visible_eq_firstCut_append (text : Bytes) :
    visible blanks text =
      visible blanks (firstCut (keptLines text)) ++ visible blanks (lines text).flatten := by
  rw [← visible_keptLines, lines, visible_flushFirst, ← keptLines]
  cases keptLines text with
  | nil => rfl
  | cons first rest =>
    rw [List.map_cons, List.flatten_cons, List.flatten_cons, visible_append, visible_append,
      visible_flatten_map fun line member => visible_cut_of_mem member, ← List.append_assoc]
    rw [← visible_append (firstCut _), firstCut_append_cut]

/-- The lines of a documentation text show all of it in its order, except what is cut from the first
line together with the common indentation. So nothing is lost exactly if only blanks are cut there,
which is the case if the first line that is not blank starts with a space. -/
theorem lines_show_all_iff (text : Bytes) :
    visible blanks text =
        visible blanks (firstCut (keptLines text)) ++ visible blanks (lines text).flatten ∧
      (visible blanks (lines text).flatten = visible blanks text ↔
        ∀ byte ∈ firstCut (keptLines text), byte ∈ blanks) ∧
      ∀ first ∈ (keptLines text).head?, startsWithSpace first →
        visible blanks (lines text).flatten = visible blanks text := by
  have parts := visible_eq_firstCut_append text
  have exact : visible blanks (lines text).flatten = visible blanks text ↔
      ∀ byte ∈ firstCut (keptLines text), byte ∈ blanks := by
    rw [← visible_eq_nil_iff, parts]
    exact List.self_eq_append_left
  refine ⟨parts, exact, fun first member spaced => exact.mpr ?_⟩
  obtain ⟨rest, equal⟩ := List.head?_eq_some_iff.mp member
  rw [equal]
  exact forall_mem_firstCut spaced

/-- The beginning of a summary is lost if the lines below it are indented. -/
theorem lines_lack_summary :
    let text := utf8 "Sums things.\n\n    Really.\n    "
    firstCut (keptLines text) = utf8 "Sums" ∧
      visible blanks (lines text).flatten ≠ visible blanks text := by
  intro text
  have piece : firstCut (keptLines text) = utf8 "Sums" := by decide
  refine ⟨piece, fun same => ?_⟩
  have blank := (lines_show_all_iff text).2.1.mp same
  rw [piece] at blank
  exact absurd blank (by decide)

end DocComment

/-! ### Streams -/

namespace Layout

/-- The blanks that are put between tokens: spaces, tabs and line ends. -/
def blanks : Bytes := space ++ indent 1 ++ newline

/-- The tokens that are written: all but a semicolon right behind a closing brace. The flag says
whether such a brace stands before the stream. -/
def writtenTokens (behindBrace : Bool) : Stream → Stream
  | [] => []
  | token :: rest =>
    let later := writtenTokens (token.isPunct closeBrace) rest
    if behindBrace && token.isPunct ";" then later else token :: later

/-- The texts of the tokens one after another. -/
def joinedTexts (stream : Stream) : Bytes :=
  stream.flatMap fun token => utf8 token.text

variable {token next : Token} {rest stream : Stream}

theorem writtenTokens_cons (token : Token) (rest : Stream) :
    writtenTokens false (token :: rest) =
      token :: writtenTokens (token.isPunct closeBrace) rest := rfl

/-- Behind a token that is no closing brace every token is written. -/
theorem writtenTokens_cons_of_role (role : roleOf token ≠ .closing) :
    writtenTokens false (token :: rest) = token :: writtenTokens false rest := by
  have noBrace : token.isPunct closeBrace = false :=
    Bool.eq_false_iff.mpr (mt roleOf_eq_closing.mpr role)
  rw [writtenTokens_cons, noBrace]

theorem writtenTokens_cons_closing (role : roleOf token = .closing)
    (kept : ∀ next ∈ rest.head?, ¬ next.isPunct ";") :
    writtenTokens false (token :: rest) = token :: writtenTokens false rest := by
  rw [writtenTokens_cons, roleOf_eq_closing.mp role]
  cases rest with
  | nil => rfl
  | cons next later => simp only [writtenTokens, kept next rfl, Bool.and_false]

theorem writtenTokens_cons_dropping (role : roleOf token = .closing) (dropped : next.isPunct ";") :
    writtenTokens false (token :: next :: rest) = token :: writtenTokens false rest := by
  have noBrace : next.isPunct closeBrace = false :=
    isPunct_eq_false_of_isPunct dropped (by decide)
  rw [writtenTokens_cons, roleOf_eq_closing.mp role, writtenTokens, noBrace, dropped]
  rfl

/-- A token with blanks before and behind it adds its own text to what is visible. -/
theorem visible_blank_text_blank {before behind text : Bytes} {written : Stream}
    (beforeBlank : Blank before) (behindBlank : Blank behind)
    (later : visible blanks text = visible blanks (joinedTexts written)) :
    visible blanks (before ++ utf8 token.text ++ (behind ++ text)) =
      visible blanks (joinedTexts (token :: written)) := by
  have nothing {gap : Bytes} (blank : Blank gap) : visible blanks gap = [] :=
    visible_eq_nil_iff.mpr blank
  rw [joinedTexts, List.flatMap_cons, ← joinedTexts, visible_append, visible_append,
    visible_append, visible_append, nothing beforeBlank, nothing behindBlank, List.nil_append,
    List.nil_append, later]

/-- Without documentation texts, what is visible of a layout are the tokens that are written. -/
theorem visible_of_lays {depth : Nat} {fresh : Bool} {previous : Token} {text : Bytes}
    (spoken : ∀ token ∈ stream, token.kind ≠ .doc) (lays : Lays depth fresh previous stream text) :
    visible blanks text = visible blanks (joinedTexts (writtenTokens false stream)) := by
  induction lays with
  | @done fresh =>
    have blank : Blank (if fresh then [] else newline) := .ite .nil .newline
    exact visible_eq_nil_iff.mpr blank
  | comment role => exact absurd (roleOf_eq_comment.mp role) (spoken _ List.mem_cons_self)
  | opening role _ inductionHypothesis =>
    rw [writtenTokens_cons_of_role (by simp [role])]
    exact visible_blank_text_blank (.ite .nil .space) .newline
      (inductionHypothesis (List.forall_mem_cons.mp spoken).2)
  | closing role kept _ inductionHypothesis =>
    rw [writtenTokens_cons_closing role kept]
    exact visible_blank_text_blank (.append (.ite .nil .newline) (.indent _)) (.lineEnd _ _)
      (inductionHypothesis (List.forall_mem_cons.mp spoken).2)
  | closingDropping role dropped _ inductionHypothesis =>
    rw [List.forall_mem_cons, List.forall_mem_cons] at spoken
    rw [writtenTokens_cons_dropping role dropped]
    exact visible_blank_text_blank (.append (.ite .nil .newline) (.indent _)) (.lineEnd _ _)
      (inductionHypothesis spoken.2.2)
  | terminator role _ inductionHypothesis =>
    rw [writtenTokens_cons_of_role (by simp [role])]
    exact visible_blank_text_blank (.ite (.indent _) .nil) (.append .newline (.separation _ _))
      (inductionHypothesis (List.forall_mem_cons.mp spoken).2)
  | @word _ _ _ _ _ text role _ inductionHypothesis =>
    rw [writtenTokens_cons_of_role (by simp [role]), ← List.nil_append text]
    exact visible_blank_text_blank (.ite (.indent _) (.ite .space .nil)) .nil
      (inductionHypothesis (List.forall_mem_cons.mp spoken).2)

/-- A stream without documentation texts is laid out behind what is written already, and there the
tokens are visible in their order, each once, but for the semicolons right behind a closing
brace. -/
theorem layoutBehind_shows_tokens {written text : Bytes} {stream : Stream}
    (spoken : ∀ token ∈ stream, token.kind ≠ .doc)
    (laid : layoutBehind written stream = .ok text) :
    ∃ own, text = written ++ own ∧
      visible blanks own = visible blanks (joinedTexts (writtenTokens false stream)) := by
  obtain ⟨own, laidOwn, rfl⟩ := map_eq_ok.mp laid
  exact ⟨own, rfl, visible_of_lays spoken (layout_eq_ok_iff.mp laidOwn)⟩

/-- A loop behind a comment. The first semicolon behind its brace is left out and the second one is
not. -/
theorem layoutBehind_shows_tokens_of_loop :
    let semicolon : Token := { kind := .punct, text := ";" }
    let stream : Stream := [{ kind := .keyword, text := "loop" },
      { kind := .punct, text := openBrace }, { kind := .literal, text := "\" \"" }, semicolon,
      { kind := .punct, text := closeBrace }, semicolon, semicolon]
    ∃ text, layoutBehind (utf8 "// x\n") stream = .ok text ∧
      ∃ own, text = utf8 "// x\n" ++ own ∧
        visible blanks own = visible blanks (joinedTexts (writtenTokens false stream)) := by
  intro semicolon stream
  obtain ⟨text, laid⟩ : ∃ text, layoutBehind (utf8 "// x\n") stream = .ok text := ⟨_, rfl⟩
  exact ⟨text, laid, layoutBehind_shows_tokens (by decide) laid⟩

end Layout

end Oxide
