/-
This file compares the text of a stream with the text of the same stream without its documentation
texts. Such a text only stands where a line begins, and none of the lines that it becomes has a line
end inside. So the text with comments is the text without them, into which whole comment lines are
inserted.
-/

import Oxide.Proofs.Delimiters
import Oxide.Proofs.Marks

namespace Oxide

open Text

/-! ### Inserted lines -/

/-- A line that is a comment: tabs, three slashes, and anything but a line end. -/
def CommentLine (line : Bytes) : Prop :=
  ∃ depth rest, line = Layout.indent depth ++ utf8 "///" ++ rest ∧ 0x0A ∉ rest

/-- The second text is the first one with whole comment lines inserted; the flag says whether a
line begins here. -/
inductive Annotated : Bool → Bytes → Bytes → Prop where
  | nil {fresh : Bool} : Annotated fresh [] []
  | keep {fresh : Bool} {byte : UInt8} {plain full : Bytes}
      (later : Annotated (byte = 0x0A) plain full) :
      Annotated fresh (byte :: plain) (byte :: full)
  | insert {line plain full : Bytes} (comment : CommentLine line)
      (later : Annotated true plain full) :
      Annotated true plain (line ++ Layout.newline ++ full)

namespace Annotated

variable {fresh : Bool} {plain full : Bytes}

/-- Where a line begins at least as much is possible as inside of a line. -/
theorem of_inside (annotated : Annotated false plain full) : Annotated fresh plain full := by
  cases annotated with
  | nil => exact .nil
  | keep later => exact .keep later

/-- A text is annotated by itself, with no comment added. -/
theorem refl (text : Bytes) : Annotated fresh text text := by
  induction text generalizing fresh with
  | nil => exact .nil
  | cons byte rest inductionHypothesis => exact .keep inductionHypothesis

/-- The same bytes in front, where what follows fits to the beginning and to the inside of a
line. -/
theorem append (front : Bytes) (later : Annotated false plain full) :
    Annotated fresh (front ++ plain) (front ++ full) := by
  induction front generalizing fresh with
  | nil => exact later.of_inside
  | cons byte rest inductionHypothesis => exact .keep inductionHypothesis

/-- What is annotated after a line break is annotated with the break. -/
theorem newline (later : Annotated true plain full) :
    Annotated fresh (Layout.newline ++ plain) (Layout.newline ++ full) :=
  .keep later

theorem separation (depth : Nat) (rest : List Token) (later : Annotated true plain full) :
    Annotated fresh (Layout.newline ++ Layout.separation depth rest ++ plain)
      (Layout.newline ++ Layout.separation depth rest ++ full) := by
  unfold Layout.separation
  split
  · rw [List.append_assoc, List.append_assoc]
    exact later.newline.newline
  · rw [List.append_nil]
    exact later.newline

/-- The end of a line is the same with comments and without. -/
theorem lineEnd (depth : Nat) (rest : List Token)
    (later : Annotated (!Layout.continuesLine rest) plain full) :
    Annotated false (Layout.lineEnd depth rest ++ plain) (Layout.lineEnd depth rest ++ full) := by
  unfold Layout.lineEnd
  cases goesOn : Layout.continuesLine rest with
  | true =>
    rw [goesOn] at later
    exact later
  | false =>
    rw [goesOn] at later
    exact later.separation depth rest

end Annotated

/-! ### The lines of a documentation text -/

namespace DocComment

/-- There is no line break in a line. -/
theorem forall_mem_splitLines (text : Bytes) : ∀ line ∈ splitLines text, 0x0A ∉ line := by
  fun_induction splitLines text with
  | case1 => simp
  | case2 rest inductionHypothesis =>
    exact List.forall_mem_cons.mpr ⟨List.not_mem_nil, inductionHypothesis⟩
  | case3 byte rest other line lines equal inductionHypothesis =>
    rw [equal, List.forall_mem_cons] at inductionHypothesis
    refine List.forall_mem_cons.mpr ⟨?_, inductionHypothesis.2⟩
    rw [List.mem_cons, not_or]
    exact ⟨fun same => other same.symm, inductionHypothesis.1⟩
  | case4 byte rest other equal inductionHypothesis =>
    rw [List.forall_mem_singleton, List.mem_singleton]
    exact fun same => other same.symm

/-- Trimming adds nothing to a line. -/
theorem trimEnd_subset (line : Bytes) : trimEnd line ⊆ line := by
  intro byte member
  rw [trimEnd, List.mem_reverse] at member
  exact List.mem_reverse.mp ((List.dropWhile_sublist _).subset member)

/-- Trimming adds no lines. -/
theorem trimEdges_subset (lines : List Bytes) : trimEdges lines ⊆ lines := by
  intro line member
  rw [trimEdges, List.mem_reverse] at member
  have kept := List.mem_reverse.mp ((List.dropWhile_sublist _).subset member)
  exact (List.dropWhile_sublist _).subset kept

theorem cut_subset (width : Nat) (line : Bytes) : cut width line ⊆ line := by
  unfold cut
  split
  · exact (List.drop_sublist width line).subset
  · exact List.Subset.refl line

theorem forall_mem_flushFirst {lines : List Bytes} (free : ∀ line ∈ lines, 0x0A ∉ line) :
    ∀ line ∈ flushFirst lines, 0x0A ∉ line := by
  cases lines with
  | nil => exact List.forall_mem_nil _
  | cons first rest =>
    rw [List.forall_mem_cons] at free
    refine List.forall_mem_cons.mpr ⟨fun member => free.1 ?_, free.2⟩
    exact (List.dropWhile_sublist _).subset member

/-- No line of a documentation text has a line end inside. -/
theorem forall_mem_lines (text : Bytes) : ∀ line ∈ lines text, 0x0A ∉ line := by
  refine forall_mem_flushFirst fun line member => ?_
  obtain ⟨kept, keptMember, rfl⟩ := List.mem_map.mp member
  obtain ⟨piece, pieceMember, rfl⟩ := List.mem_map.mp (trimEdges_subset _ keptMember)
  intro inside
  exact forall_mem_splitLines text piece pieceMember (trimEnd_subset piece (cut_subset _ _ inside))

end DocComment

namespace Layout

/-- An empty text makes no comment. -/
theorem comment_nil (depth : Nat) : comment depth "" = [] := rfl

/-- A documentation text at the beginning of a line inserts whole comment lines. -/
theorem annotated_comment {plain full : Bytes} (depth : Nat) (text : String)
    (later : Annotated true plain full) : Annotated true plain (comment depth text ++ full) := by
  have free := DocComment.forall_mem_lines (utf8 text)
  unfold comment
  generalize DocComment.lines (utf8 text) = lines at free
  induction lines with
  | nil => exact later
  | cons line rest inductionHypothesis =>
    rw [List.forall_mem_cons] at free
    rw [List.flatMap_cons, List.append_assoc]
    refine .insert ?_ (inductionHypothesis free.2)
    split
    · exact ⟨depth, [], (List.append_nil _).symm, List.not_mem_nil⟩
    · refine ⟨depth, space ++ line, ?_, ?_⟩
      · rw [List.append_assoc, ← List.append_assoc (utf8 "///")]
        rfl
      · rw [List.mem_append, not_or]
        exact ⟨by decide, free.1⟩

end Layout

/-! ### Emptied documentation texts -/

/-- The same token, where a documentation text is emptied if that is asked for. -/
def Token.emptied (silent : Bool) (token : Token) : Token :=
  if silent && token.kind = .doc then { token with text := "" } else token

/-- The same stream, where all documentation texts are emptied if that is asked for. -/
def Stream.emptied (silent : Bool) (stream : Stream) : Stream :=
  stream.map (Token.emptied silent)

/-- Only documentation can be emptied. -/
theorem Token.emptied_of_ne {token : Token} (silent : Bool) (spoken : token.kind ≠ .doc) :
    token.emptied silent = token := by
  simp [emptied, spoken]

theorem Token.kind_emptied (silent : Bool) (token : Token) :
    (token.emptied silent).kind = token.kind := by
  unfold emptied
  split <;> rfl

theorem Token.isPunct_emptied (silent : Bool) (token : Token) (text : String) :
    (token.emptied silent).isPunct text = token.isPunct text := by
  by_cases isDoc : token.kind = .doc
  · simp [isPunct, (kind_emptied silent token).trans isDoc, isDoc]
  · rw [emptied_of_ne silent isDoc]

namespace Stream

variable {silent : Bool}

@[simp] theorem emptied_nil : emptied silent [] = [] := rfl

@[simp] theorem emptied_append (first second : Stream) :
    emptied silent (first ++ second) = emptied silent first ++ emptied silent second :=
  List.map_append

/-- There is no documentation in a woven stream, so emptying does nothing. -/
theorem emptied_of_woven {stream : Stream} (woven : Woven stream) :
    emptied silent stream = stream := by
  refine (List.map_congr_left fun token member => ?_).trans (List.map_id _)
  exact Token.emptied_of_ne silent (woven.kind_ne_doc token member)

@[simp] theorem emptied_punct (stream : Stream) (text : String) :
    emptied silent (stream.punct text) = (emptied silent stream).punct text := by
  rw [punct, emptied_append, emptied_of_woven (Woven.sign text false), punct]

@[simp] theorem emptied_keyword (stream : Stream) (word : String) :
    emptied silent (stream.keyword word) = (emptied silent stream).keyword word := by
  have single : Woven [{ kind := .keyword, text := word }] := Woven.keyword .nil word
  rw [keyword, emptied_append, emptied_of_woven single, keyword]

@[simp] theorem emptied_braced (head body : Stream) :
    emptied silent (Lower.braced head body) =
      Lower.braced (emptied silent head) (emptied silent body) := by
  simp [Lower.braced, group]

theorem emptied_false (stream : Stream) : emptied false stream = stream :=
  List.map_id stream

end Stream

namespace Layout

/-- Whether a line goes on does not depend on the documentation. -/
theorem continuesLine_emptied (silent : Bool) (stream : Stream) :
    continuesLine (stream.emptied silent) = continuesLine stream := by
  cases stream with
  | nil => rfl
  | cons token rest =>
    by_cases isDoc : token.kind = .doc
    · have kind := (Token.kind_emptied silent token).trans isDoc
      simp [Stream.emptied, continuesLine, Token.isKeyword, kind, isDoc]
    · simp [Stream.emptied, continuesLine, Token.emptied_of_ne silent isDoc]

/-- Blank lines do not depend on the documentation. -/
theorem separation_emptied (silent : Bool) (depth : Nat) (stream : Stream) :
    separation depth (stream.emptied silent) = separation depth stream := by
  simp [separation, Stream.emptied]

theorem lineEnd_emptied (silent : Bool) (depth : Nat) (stream : Stream) :
    lineEnd depth (stream.emptied silent) = lineEnd depth stream := by
  rw [lineEnd, continuesLine_emptied, separation_emptied, lineEnd]

/-- A token that says something is the same without documentation texts. -/
theorem emptied_cons_of_role {token : Token} (rest : Stream) (role : roleOf token ≠ .comment) :
    Stream.emptied true (token :: rest) = token :: rest.emptied true := by
  have spoken : token.kind ≠ .doc := fun isDoc => role (roleOf_eq_comment.mpr isDoc)
  rw [Stream.emptied, List.map_cons, Token.emptied_of_ne true spoken]
  rfl

/-- Whether documentation texts only stand where a line begins, at the start of the stream too. -/
structure Leading (fresh : Bool) (stream : Stream) : Prop where
  starts : ∀ next ∈ stream.head?, next.kind = .doc → fresh
  chain : stream.IsChain Token.Fits

namespace Leading

variable {fresh : Bool} {token : Token} {rest : Stream}

/-- Documentation still leads its line behind a token that ends one. -/
theorem tail (leading : Leading fresh (token :: rest)) : Leading true rest where
  starts _ _ _ := rfl
  chain := leading.chain.tail

theorem tail_closing (leading : Leading fresh (token :: rest)) :
    Leading (!continuesLine rest) rest where
  starts next member isDoc := by
    obtain ⟨later, rfl⟩ := List.head?_eq_some_iff.mp member
    simp [continuesLine, Token.isKeyword, isDoc]
  chain := leading.chain.tail

/-- Behind a word no documentation can follow on the same line. -/
theorem tail_word (leading : Leading fresh (token :: rest)) (role : roleOf token = .word) :
    Leading false rest where
  starts next member isDoc := by
    have ends := ((List.isChain_cons.mp leading.chain).1 next member).leads isDoc
    -- A token that ends a line plays another part than that of a word.
    simp only [Token.endsLine, Bool.or_eq_true, decide_eq_true_iff] at ends
    rcases ends with ((isDoc | isOpening) | isClosing) | isSemicolon
    · cases role.symm.trans (roleOf_eq_comment.mpr isDoc)
    · cases role.symm.trans (roleOf_eq_opening.mpr isOpening)
    · cases role.symm.trans (roleOf_eq_closing.mpr isClosing)
    · cases role.symm.trans (roleOf_eq_terminator.mpr isSemicolon)
  chain := leading.chain.tail

end Leading

/-- The text without the documentation texts is found, and the text with them has whole comment
lines inserted. -/
theorem exists_lays_emptied {depth : Nat} {fresh : Bool} {previous before : Token}
    {stream : Stream} {full : Bytes} (leading : Leading fresh stream)
    (same : fresh = false → before = previous) (lays : Lays depth fresh previous stream full) :
    ∃ plain, Lays depth fresh before (stream.emptied true) plain ∧ Annotated fresh plain full := by
  induction lays generalizing before with
  | done => exact ⟨_, .done, .refl _⟩
  | @comment depth fresh _ token rest text role _ inductionHypothesis =>
    have isDoc := roleOf_eq_comment.mp role
    obtain rfl : fresh = true := leading.starts token rfl isDoc
    obtain ⟨plain, laid, annotated⟩ :=
      @inductionHypothesis (token.emptied true) leading.tail nofun
    refine ⟨plain, ?_, annotated_comment depth token.text annotated⟩
    have silent : (token.emptied true).text = "" := by simp [Token.emptied, isDoc]
    have rule : Lays depth true before (token.emptied true :: rest.emptied true)
        (comment depth (token.emptied true).text ++ plain) :=
      .comment (roleOf_eq_comment.mpr ((Token.kind_emptied true token).trans isDoc)) laid
    rwa [silent, comment_nil, List.nil_append] at rule
  | @opening depth fresh _ token rest text role _ inductionHypothesis =>
    obtain ⟨plain, laid, annotated⟩ := @inductionHypothesis token leading.tail nofun
    rw [emptied_cons_of_role rest (by simp [role])]
    exact ⟨_, .opening role laid, .append _ annotated.newline⟩
  | @closing outer fresh _ token rest text role kept _ inductionHypothesis =>
    obtain ⟨plain, laid, annotated⟩ := @inductionHypothesis token leading.tail_closing fun _ => rfl
    rw [← continuesLine_emptied true rest] at laid
    have keptEmptied : ∀ next ∈ (rest.emptied true).head?, ¬ next.isPunct ";" := by
      intro next member
      rw [Stream.emptied, List.head?_map] at member
      obtain ⟨original, originalMember, rfl⟩ := Option.map_eq_some_iff.mp member
      rw [Token.isPunct_emptied]
      exact kept original originalMember
    rw [emptied_cons_of_role rest (by simp [role])]
    refine ⟨_, .closing role keptEmptied laid, ?_⟩
    rw [lineEnd_emptied]
    exact .append _ (annotated.lineEnd outer rest)
  | @closingDropping outer fresh _ token next rest text role dropped _ inductionHypothesis =>
    obtain ⟨plain, laid, annotated⟩ :=
      @inductionHypothesis next leading.tail.tail_closing fun _ => rfl
    rw [← continuesLine_emptied true rest] at laid
    rw [emptied_cons_of_role _ (by simp [role]),
      emptied_cons_of_role rest (by simp [roleOf_eq_terminator.mpr dropped])]
    refine ⟨_, .closingDropping role dropped laid, ?_⟩
    rw [lineEnd_emptied]
    exact .append _ (annotated.lineEnd outer rest)
  | @terminator depth fresh _ token rest text role _ inductionHypothesis =>
    obtain ⟨plain, laid, annotated⟩ := @inductionHypothesis token leading.tail nofun
    rw [emptied_cons_of_role rest (by simp [role])]
    refine ⟨_, .terminator role laid, ?_⟩
    rw [separation_emptied]
    exact .append _ (annotated.separation depth rest)
  | @word depth fresh previous token rest text role _ inductionHypothesis =>
    obtain ⟨plain, laid, annotated⟩ :=
      @inductionHypothesis token (leading.tail_word role) fun _ => rfl
    have gap : (if fresh then indent depth else if spaced before token then space else []) =
        if fresh then indent depth else if spaced previous token then space else [] := by
      cases fresh with
      | true => rfl
      | false => rw [same rfl]
    rw [emptied_cons_of_role rest (by simp [role])]
    refine ⟨_, .word role laid, ?_⟩
    rw [gap]
    exact .append _ annotated

end Layout

end Oxide
