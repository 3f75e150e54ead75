/-
This file proves that the lines of a module are indented by the braces that are open. `Ruled` cuts a
stream into the tokens of its lines: every line that is not empty starts with one tab for each open
brace and goes on with its first token. The layout writes no tabs before an opening brace, so this
rests on a fact about the streams of modules, in which an opening brace always stands behind the
head of its block and never at the beginning of a line.
-/

import Oxide.Proofs.BraceBalance
import Oxide.Proofs.CommentLines
import Oxide.Proofs.Waiting
import Oxide.Proofs.WordSpacing

namespace Oxide

open Text

/-! ### Blocks with a head -/

namespace Token

/-- Whether a token can stand before another one: an opening brace stays on a line that has
begun. -/
def Heads (first second : Token) : Prop :=
  second.isPunct openBrace → first.endsLine = false

theorem endsLine_eq_false_iff {token : Token} :
    token.endsLine = false ↔ token.kind ≠ .doc ∧ ¬ token.divides := by
  simp [endsLine, divides, and_assoc]

end Token

/-- A stream in which every opening brace stands behind the head of its block. -/
structure Headed (stream : Stream) : Prop where
  starts : ∀ next ∈ stream.head?, ¬ next.isPunct openBrace
  chain : stream.IsChain Token.Heads

/-- A stream behind which its line goes on. -/
def GoesOn (stream : Stream) : Prop :=
  ∃ last ∈ stream.getLast?, last.endsLine = false

namespace Headed

variable {first second head body : Stream}

theorem nil : Headed [] where
  starts := nofun
  chain := List.isChain_nil

theorem single {token : Token} (noBrace : ¬ token.isPunct openBrace) : Headed [token] where
  starts := by
    rintro _ ⟨⟩
    exact noBrace
  chain := List.isChain_singleton token

theorem append (firstHeaded : Headed first) (secondHeaded : Headed second) :
    Headed (first ++ second) where
  starts next member := by
    rw [List.head?_append, Option.mem_def, Option.or_eq_some_iff] at member
    rcases member with member | ⟨_, member⟩
    · exact firstHeaded.starts next member
    · exact secondHeaded.starts next member
  chain := by
    refine List.isChain_append.mpr ⟨firstHeaded.chain, secondHeaded.chain, ?_⟩
    intro _ _ next member isOpening
    exact absurd isOpening (secondHeaded.starts next member)

theorem keyword (headed : Headed first) (word : String) : Headed (first.keyword word) :=
  headed.append (single nofun)

theorem punct (headed : Headed first) {text : String} (noBrace : text ≠ openBrace) :
    Headed (first.punct text) :=
  headed.append (single (by simp [Token.isPunct, noBrace]))

theorem flatten {streams : List Stream} (all : ∀ stream ∈ streams, Headed stream) :
    Headed streams.flatten := by
  induction streams with
  | nil => exact nil
  | cons first rest inductionHypothesis =>
    rw [List.forall_mem_cons] at all
    exact all.1.append (inductionHypothesis all.2)

/-- A stream without opening braces has no block. -/
theorem of_forall {stream : Stream} (none : ∀ token ∈ stream, ¬ token.isPunct openBrace) :
    Headed stream := by
  induction stream with
  | nil => exact nil
  | cons token rest inductionHypothesis =>
    rw [List.forall_mem_cons] at none
    exact (single none.1).append (inductionHypothesis none.2)

theorem of_not_divides {stream : Stream} (within : ∀ token ∈ stream.bare, ¬ token.divides) :
    Headed stream := by
  refine of_forall fun token member isOpening => within _ (List.mem_map_of_mem member) ?_
  have sameText : token.bare.isPunct openBrace := isOpening
  rw [Token.divides, sameText]
  rfl

/-- A block behind a head that does not end its line. -/
theorem braced (headHeaded : Headed head) (goesOn : GoesOn head) (bodyHeaded : Headed body) :
    Headed (Lower.braced head body) := by
  obtain ⟨last, lastMember, notEnded⟩ := goesOn
  have nonempty : head ≠ [] := by
    rintro rfl
    cases lastMember
  have opened : Headed (head.punct openBrace) := by
    refine ⟨fun next member => headHeaded.starts next ?_, ?_⟩
    · rwa [Stream.punct, List.head?_append_of_ne_nil _ nonempty] at member
    · refine List.isChain_append.mpr ⟨headHeaded.chain, List.isChain_singleton _, ?_⟩
      rintro other otherMember _ _ _
      rwa [← Option.mem_unique lastMember otherMember]
  rw [Lower.braced, Stream.group, if_pos rfl]
  exact (opened.append bodyHeaded).punct (by decide)

end Headed

/-- What ends no line leaves the line open. -/
theorem goesOn_append (first : Stream) {second : Stream} (nonempty : second ≠ [])
    (inline : ∀ token ∈ second, token.endsLine = false) : GoesOn (first ++ second) := by
  refine ⟨second.getLast nonempty, ?_, inline _ (List.getLast_mem nonempty)⟩
  rw [List.getLast?_append_of_ne_nil _ nonempty]
  exact List.getLast?_eq_getLast_of_ne_nil nonempty

theorem goesOn_keyword (stream : Stream) (word : String) : GoesOn (stream.keyword word) :=
  goesOn_append stream (List.cons_ne_nil _ _) (List.forall_mem_singleton.mpr rfl)

namespace Lower

variable {options : Options} {context : Context} {table : Table}

/-- A woven stream within a statement ends no line. -/
theorem endsLine_of_woven {stream : Stream} (woven : Woven stream)
    (within : ∀ token ∈ stream.bare, ¬ token.divides) :
    ∀ token ∈ stream, token.endsLine = false := by
  intro token member
  have undivided : ¬ token.divides := within token.bare (List.mem_map_of_mem member)
  exact Token.endsLine_eq_false_iff.mpr ⟨woven.kind_ne_doc token member, undivided⟩

theorem headed_expr {value : Expr} {stream : Stream}
    (lowered : expr context table value = .ok stream) : Headed stream :=
  .of_not_divides (phrase_expr lowered).calm.not_divides

/-- A block behind a word and an expression. -/
theorem headed_conditional {front condition inner : Stream} {test : Expr} (word : String)
    (frontHeaded : Headed front) (tested : expr context table test = .ok condition)
    (innerHeaded : Headed inner) : Headed (braced (front.keyword word ++ condition) inner) := by
  refine .braced ((frontHeaded.keyword word).append (headed_expr tested)) ?_ innerHeaded
  obtain rfl | nonempty := eq_or_ne condition []
  · rw [List.append_nil]
    exact goesOn_keyword front word
  · exact goesOn_append _ nonempty (endsLine_of_woven (woven_expr tested)
      (phrase_expr tested).calm.not_divides)

theorem headed_front (table : Table) (definition : FunctionDef) :
    Headed (frontTokens options table definition) := by
  refine front_induction .nil (fun name type? => ?_) .append options _
  have declared : Headed (newVariable name type?) :=
    .of_not_divides (@inline_newVariable false name type?).within
  exact declared.punct (by decide)

/-- The head of a function does not end its line, although it starts with a documentation text. -/
theorem goesOn_head {definition : FunctionDef} {clause output : Stream}
    (clauseLowered : params options definition.params = .ok clause)
    (outputLowered : result options definition.returns = .ok output) :
    GoesOn (head context options definition clause output) := by
  obtain ⟨opened, woven, equal⟩ :=
    exists_head_eq context definition (woven_params clauseLowered) (woven_result outputLowered)
  obtain ⟨front, _, spelled⟩ :=
    exists_head_bare_eq options context definition clause output
  have within : ∀ token ∈ (head context options definition clause output).bare,
      ¬ token.divides := (calm_head clauseLowered outputLowered).not_divides
  rw [equal] at within spelled ⊢
  refine goesOn_append _ ?_ (endsLine_of_woven woven fun token member => within token ?_)
  · rintro rfl
    have lengths := congrArg List.length spelled
    simp [Stream.doc] at lengths
    omega
  · rw [Stream.bare_append]
    exact List.mem_append_right _ member

/-- In everything that is emitted a block has a head. -/
theorem headed_emits {piece : Piece} {stream : Stream}
    (emitted : Emits options piece context table stream) : Headed stream := by
  have whole := emitted
  induction emitted with
  | functionDef _ inner headed => exact headed inner
  | asyncFunctionDef _ inner headed => exact headed inner
  | ifOnly tested inner body => exact headed_conditional "if" .nil tested (body inner)
  | ifFurther tested inner other body further =>
    exact ((headed_conditional "if" .nil tested (body inner)).keyword "else").append
      (further other)
  | ifElse _ _ tested inner other body orelse =>
    have opened := (headed_conditional "if" .nil tested (body inner)).keyword "else"
    exact .braced opened (goesOn_keyword _ "else") (orelse other)
  | forever _ inner body =>
    exact .braced (Headed.nil.keyword "loop") (goesOn_keyword [] "loop") (body inner)
  | whileLoop tested inner body => exact headed_conditional "while" .nil tested (body inner)
  | forLoop placed lowered inner body =>
    have opened := Headed.of_not_divides (@inline_loopPlace false _ _ _ placed).within
    exact headed_conditional "in" ((Headed.nil.keyword "for").append opened) lowered (body inner)
  | blockNil => exact .nil
  | blockCons inner later first rest =>
    exact ((first inner).punct (by decide)).append (rest later)
  | @function definition context table _ _ _ _ clauseLowered outputLowered inner body =>
    exact .braced (.of_not_divides (calm_head clauseLowered outputLowered).not_divides)
      (goesOn_head clauseLowered outputLowered)
      ((headed_front table definition).append (body inner))
  | _ => exact .of_not_divides (inline_of_isSimple rfl whole).within

theorem headed_runtimeLine : Headed (runtimeLine options) := by
  unfold runtimeLine
  split
  · refine (Headed.nil.keyword "use").append (.punct (.of_not_divides ?_) (by decide))
    simp only [Stream.bare_join, Stream.bare_punct]
    exact (Phrase.append (.append (Ty.phrase_path _) (.sign (by decide)))
      (.sign (by decide))).calm.not_divides
  · exact .nil

/-- In a module every block has a head. -/
theorem headed_module {source : Module} {stream : Stream}
    (lowered : (module options table source).2 = .ok stream) : Headed stream := by
  obtain ⟨streams, itemsLowered, rfl⟩ := module_of_ok lowered
  refine headed_runtimeLine.append (.flatten fun item member => ?_)
  obtain ⟨_, _, itemLowered⟩ := exists_item_of_mem itemsLowered member
  exact headed_emits (emits_of_function _ _ _ _ itemLowered)

end Lower

/-! ### Ruled lines -/

/-- How many braces are open on a line with the given first token, which counts itself if it is a
closing brace. -/
def Stream.lineDepth (before : Stream) (first : Token) : Int :=
  if first.isPunct closeBrace then balance (before ++ [first]) else balance before

theorem Stream.lineDepth_of_not_closing {before : Stream} {first : Token}
    (noClosing : ¬ first.isPunct closeBrace) : before.lineDepth first = before.balance :=
  if_neg noClosing

theorem Stream.lineDepth_of_closing {before : Stream} {first : Token}
    (isClosing : first.isPunct closeBrace) :
    before.lineDepth first = before.balance - 1 := by
  rw [lineDepth, if_pos isClosing, balance_concat, Token.braceChange_of_closing isClosing,
    Int.sub_eq_add_neg]

/-- The lines that a stream is written on, given what stands before it. A line is empty, or it is
one of the lines of a documentation text, or it spells the next tokens of the stream; and if it is
not empty, it starts with one tab for each brace that is open there. -/
inductive Ruled : Stream → Stream → List Bytes → Prop where
  | nil {before : Stream} : Ruled before [] []
  | empty {before stream : Stream} {lines : List Bytes} (later : Ruled before stream lines) :
      Ruled before stream ([] :: lines)
  | comment {before rest : Stream} {token : Token} {own lines : List Bytes} {depth : Nat}
      (isDoc : token.kind = .doc) (nested : depth = before.lineDepth token)
      (written : own.flatMap (· ++ Layout.newline) = Layout.comment depth token.text)
      (indented : ∀ line ∈ own, ∃ words, line = Layout.indent depth ++ utf8 "///" ++ words)
      (later : Ruled (before ++ [token]) rest lines) : Ruled before (token :: rest) (own ++ lines)
  | line {before more rest : Stream} {first : Token} {words : Bytes} {lines : List Bytes}
      {depth : Nat} (spoken : ∀ token ∈ first :: more, token.kind ≠ .doc)
      (nested : depth = before.lineDepth first) (spelled : Spelled first.isWord more words)
      (later : Ruled (before ++ first :: more) rest lines) :
      Ruled before (first :: (more ++ rest))
        ((Layout.indent depth ++ utf8 first.text ++ words) :: lines)

/-- What a line shows of the token that it starts with. -/
def Token.lineStart (token : Token) : Bytes :=
  if token.kind = .doc then utf8 "///" else utf8 token.text

/-- Whether a line starts with some token of a stream, behind one tab for each brace that is open
there, given what stands before the stream. -/
def Indented (before stream : Stream) (line : Bytes) : Prop :=
  ∃ front token behind words, ∃ depth : Nat, stream = front ++ token :: behind ∧
    depth = (before ++ front).lineDepth token ∧
    line = Layout.indent depth ++ token.lineStart ++ words

theorem Indented.append {before own rest : Stream} {line : Bytes}
    (indented : Indented (before ++ own) rest line) : Indented before (own ++ rest) line := by
  obtain ⟨front, token, behind, words, depth, rfl, nested, rfl⟩ := indented
  rw [List.append_assoc] at nested
  exact ⟨own ++ front, token, behind, words, depth, (List.append_assoc _ _ _).symm, nested, rfl⟩

/-- All ruled lines are empty or indented. -/
theorem Ruled.indented {before stream : Stream} {lines : List Bytes}
    (ruled : Ruled before stream lines) :
    ∀ line ∈ lines, line = [] ∨ Indented before stream line := by
  induction ruled with
  | nil => exact List.forall_mem_nil _
  | empty _ inductionHypothesis => exact List.forall_mem_cons.mpr ⟨.inl rfl, inductionHypothesis⟩
  | @comment before rest token _ _ depth isDoc nested _ indented _ inductionHypothesis =>
    refine List.forall_mem_append.mpr ⟨fun line member => .inr ?_, fun line member => ?_⟩
    · obtain ⟨words, rfl⟩ := indented line member
      refine ⟨[], token, rest, words, depth, rfl, by rwa [List.append_nil], ?_⟩
      rw [Token.lineStart, if_pos isDoc]
    · exact (inductionHypothesis line member).imp_right .append
  | @line before more rest first words _ depth spoken nested _ _ inductionHypothesis =>
    refine List.forall_mem_cons.mpr ⟨.inr ?_, fun line member => ?_⟩
    · refine ⟨[], first, more ++ rest, words, depth, rfl, by rwa [List.append_nil], ?_⟩
      rw [Token.lineStart, if_neg (spoken first List.mem_cons_self)]
    · exact (inductionHypothesis line member).imp_right fun later =>
        @Indented.append before (first :: more) rest line later

/-! ### Lines of a text -/

namespace DocComment

theorem splitLines_append {line : Bytes} (unbroken : 0x0A ∉ line) (rest : Bytes) :
    splitLines (line ++ Layout.newline ++ rest) = line :: splitLines rest := by
  induction line with
  | nil => rfl
  | cons byte line inductionHypothesis =>
    rw [List.mem_cons, not_or] at unbroken
    rw [List.cons_append, List.cons_append, splitLines, if_neg (Ne.symm unbroken.1),
      inductionHypothesis unbroken.2]

theorem splitLines_flatMap {lines : List Bytes} (unbroken : ∀ line ∈ lines, 0x0A ∉ line)
    (rest : Bytes) :
    splitLines (lines.flatMap (· ++ Layout.newline) ++ rest) = lines ++ splitLines rest := by
  induction lines with
  | nil => rfl
  | cons line lines inductionHypothesis =>
    rw [List.forall_mem_cons] at unbroken
    rw [List.flatMap_cons, List.append_assoc, splitLines_append unbroken.1,
      inductionHypothesis unbroken.2, List.cons_append]

end DocComment

namespace Layout

/-- One line of a comment. -/
def commentLine (depth : Nat) (line : Bytes) : Bytes :=
  indent depth ++ if line.isEmpty then utf8 "///" else utf8 "/// " ++ line

theorem comment_eq_flatMap (depth : Nat) (text : String) :
    comment depth text =
      ((DocComment.lines (utf8 text)).map (commentLine depth)).flatMap (· ++ newline) := by
  rw [List.flatMap_map]
  rfl

theorem exists_commentLine_eq (depth : Nat) (line : Bytes) :
    ∃ words, commentLine depth line = indent depth ++ utf8 "///" ++ words ∧
      words ⊆ space ++ line := by
  unfold commentLine
  split
  · exact ⟨[], (List.append_nil _).symm, List.nil_subset _⟩
  · refine ⟨space ++ line, ?_, List.Subset.refl _⟩
    rw [List.append_assoc, ← List.append_assoc (utf8 "///")]
    rfl

/-- A line that has begun: its rest spells the next tokens, and then ruled lines follow. -/
inductive Continued (before : Stream) (afterWord : Bool) : Stream → Bytes → Prop where
  | intro {more rest : Stream} {words later : Bytes} (spoken : ∀ token ∈ more, token.kind ≠ .doc)
      (spelled : Spelled afterWord more words) (unbroken : 0x0A ∉ words)
      (ruled : Ruled (before ++ more) rest (DocComment.splitLines later)) :
      Continued before afterWord (more ++ rest) (words ++ newline ++ later)

theorem newline_not_mem_append {first second : Bytes} (firstUnbroken : 0x0A ∉ first)
    (secondUnbroken : 0x0A ∉ second) : 0x0A ∉ first ++ second := by
  rw [List.mem_append, not_or]
  exact ⟨firstUnbroken, secondUnbroken⟩

theorem newline_not_mem_indent (depth : Nat) : 0x0A ∉ indent depth := by
  intro member
  cases List.eq_of_mem_replicate member

namespace Continued

variable {before rest : Stream} {afterWord : Bool} {token : Token} {text : Bytes}

/-- The line ends here. -/
theorem ended (ruled : Ruled before rest (DocComment.splitLines text)) :
    Continued before afterWord rest (newline ++ text) := by
  refine @intro before afterWord [] rest [] text (List.forall_mem_nil _) (.nil .nil)
    List.not_mem_nil ?_
  rwa [List.append_nil]

/-- The line goes on with a token. -/
theorem cons {gap own : Bytes} (spoken : token.kind ≠ .doc) (blank : Blank gap)
    (spells : Spells token own) (apart : afterWord → token.isWord → gap ≠ [])
    (unbroken : 0x0A ∉ gap ++ own) (later : Continued (before ++ [token]) token.isWord rest text) :
    Continued before afterWord (token :: rest) (gap ++ own ++ text) := by
  obtain @⟨more, rest, words, text, moreSpoken, spelled, wordsUnbroken, ruled⟩ := later
  rw [← List.append_assoc, ← List.append_assoc, ← List.cons_append]
  refine .intro (List.forall_mem_cons.mpr ⟨spoken, moreSpoken⟩) (.cons blank spells apart spelled)
    (newline_not_mem_append unbroken wordsUnbroken) ?_
  rwa [List.append_assoc] at ruled

/-- A token begins the line. -/
theorem ruled_cons {depth : Nat} (spoken : token.kind ≠ .doc) (unbroken : 0x0A ∉ utf8 token.text)
    (nested : depth = before.lineDepth token)
    (later : Continued (before ++ [token]) token.isWord rest text) :
    Ruled before (token :: rest)
      (DocComment.splitLines (indent depth ++ utf8 token.text ++ text)) := by
  obtain @⟨more, rest, words, text, moreSpoken, spelled, wordsUnbroken, ruled⟩ := later
  have whole : 0x0A ∉ indent depth ++ utf8 token.text ++ words :=
    newline_not_mem_append (newline_not_mem_append (newline_not_mem_indent depth) unbroken)
      wordsUnbroken
  rw [← List.append_assoc, ← List.append_assoc, DocComment.splitLines_append whole]
  rw [List.append_assoc] at ruled
  exact .line (List.forall_mem_cons.mpr ⟨spoken, moreSpoken⟩) nested spelled ruled

end Continued

theorem ruled_separation {before stream : Stream} {text : Bytes} (depth : Nat) (rest : Stream)
    (ruled : Ruled before stream (DocComment.splitLines text)) :
    Ruled before stream (DocComment.splitLines (separation depth rest ++ text)) := by
  unfold separation
  split
  · exact .empty ruled
  · exact ruled

/-- How the text of a stream goes on: with ruled lines where a line begins, and else with the rest
of the line first. -/
def Resumes (before : Stream) (fresh afterWord : Bool) (stream : Stream) (text : Bytes) : Prop :=
  if fresh then Ruled before stream (DocComment.splitLines text)
  else Continued before afterWord stream text

/-- Behind a closing brace the line ends, unless it goes on with the other branch of a condition. -/
theorem Resumes.lineEnd {before rest : Stream} {afterWord : Bool} {text : Bytes} (depth : Nat)
    (resumes : Resumes before (!continuesLine rest) afterWord rest text) :
    Continued before afterWord rest (lineEnd depth rest ++ text) := by
  unfold Layout.lineEnd
  cases goesOn : continuesLine rest with
  | true =>
    rw [goesOn] at resumes
    exact resumes
  | false =>
    rw [goesOn] at resumes
    rw [if_neg Bool.false_ne_true, List.append_assoc]
    exact .ended (ruled_separation depth rest resumes)

/-! ### Steady streams -/

theorem endsLine_of_role {token : Token} (notWord : roleOf token ≠ .word) : token.endsLine := by
  cases role : roleOf token with
  | comment => simp [Token.endsLine, roleOf_eq_comment.mp role]
  | opening => simp [Token.endsLine, roleOf_eq_opening.mp role]
  | closing => simp [Token.endsLine, roleOf_eq_closing.mp role]
  | terminator => simp [Token.endsLine, roleOf_eq_terminator.mp role]
  | word => exact absurd role notWord

/-- A stream that can be laid out on ruled lines: documentation texts stand where a line begins,
opening braces where one has begun, and no other token breaks its line. -/
structure Steady (fresh : Bool) (stream : Stream) : Prop extends Leading fresh stream where
  opens : ∀ next ∈ stream.head?, next.isPunct openBrace → fresh = false
  heads : stream.IsChain Token.Heads
  unbroken : ∀ token ∈ stream, token.kind ≠ .doc → 0x0A ∉ utf8 token.text

namespace Steady

variable {fresh : Bool} {token : Token} {rest : Stream}

/-- A token that is no word ends its line, and behind it no opening brace stands. -/
theorem tail_of_leading {later : Bool} (steady : Steady fresh (token :: rest))
    (notWord : roleOf token ≠ .word) (leading : Leading later rest) : Steady later rest where
  toLeading := leading
  opens next member isOpening := by
    have notEnded := (List.isChain_cons.mp steady.heads).1 next member isOpening
    rw [endsLine_of_role notWord] at notEnded
    cases notEnded
  heads := steady.heads.tail
  unbroken := (List.forall_mem_cons.mp steady.unbroken).2

theorem tail (steady : Steady fresh (token :: rest)) (notWord : roleOf token ≠ .word) :
    Steady true rest :=
  steady.tail_of_leading notWord steady.toLeading.tail

theorem tail_closing (steady : Steady fresh (token :: rest)) (notWord : roleOf token ≠ .word) :
    Steady (!continuesLine rest) rest :=
  steady.tail_of_leading notWord steady.toLeading.tail_closing

theorem tail_word (steady : Steady fresh (token :: rest)) (role : roleOf token = .word) :
    Steady false rest where
  toLeading := steady.toLeading.tail_word role
  opens _ _ _ := rfl
  heads := steady.heads.tail
  unbroken := (List.forall_mem_cons.mp steady.unbroken).2

theorem text_unbroken (steady : Steady fresh (token :: rest))
    (notComment : roleOf token ≠ .comment) : 0x0A ∉ utf8 token.text :=
  steady.unbroken token List.mem_cons_self (mt roleOf_eq_comment.mpr notComment)

end Steady

/-! ### Laid out lines -/

section Tokens

variable {before rest : Stream} {token : Token} {depth : Nat} {text : Bytes}

/-- A documentation text becomes lines of its own. -/
theorem ruled_comment (isDoc : token.kind = .doc) (nested : depth = before.balance)
    (later : Ruled (before ++ [token]) rest (DocComment.splitLines text)) :
    Ruled before (token :: rest)
      (DocComment.splitLines (comment depth token.text ++ text)) := by
  have noClosing : ¬ token.isPunct closeBrace := by simp [Token.isPunct, isDoc]
  have unbroken : ∀ line ∈ (DocComment.lines (utf8 token.text)).map (commentLine depth),
      0x0A ∉ line := by
    refine List.forall_mem_map.mpr fun line member => ?_
    obtain ⟨words, equal, subset⟩ := exists_commentLine_eq depth line
    have wordsUnbroken : 0x0A ∉ words := fun inWords =>
      newline_not_mem_append (by decide) (DocComment.forall_mem_lines _ line member)
        (subset inWords)
    rw [equal]
    exact newline_not_mem_append (newline_not_mem_append (newline_not_mem_indent depth) (by decide))
      wordsUnbroken
  rw [comment_eq_flatMap, DocComment.splitLines_flatMap unbroken]
  refine .comment isDoc (nested.trans (Stream.lineDepth_of_not_closing noClosing).symm)
    (comment_eq_flatMap depth token.text).symm (List.forall_mem_map.mpr fun line _ => ?_) later
  obtain ⟨words, equal, _⟩ := exists_commentLine_eq depth line
  exact ⟨words, equal⟩

/-- A token that closes no brace begins a line behind the tabs, or goes on with one behind a gap. -/
theorem Continued.resumes {fresh afterWord : Bool} {gap : Bytes}
    (notComment : roleOf token ≠ .comment) (notClosing : roleOf token ≠ .closing)
    (unbroken : 0x0A ∉ utf8 token.text) (nested : depth = before.balance) (blank : Blank gap)
    (gapUnbroken : 0x0A ∉ gap) (apart : fresh = false → afterWord → token.isWord → gap ≠ [])
    (later : Continued (before ++ [token]) token.isWord rest text) :
    Resumes before fresh afterWord (token :: rest)
      ((if fresh then indent depth else gap) ++ utf8 token.text ++ text) := by
  have spoken : token.kind ≠ .doc := mt roleOf_eq_comment.mpr notComment
  have noClosing : ¬ token.isPunct closeBrace := mt roleOf_eq_closing.mpr notClosing
  cases fresh with
  | true =>
    exact later.ruled_cons spoken unbroken
      (nested.trans (Stream.lineDepth_of_not_closing noClosing).symm)
  | false =>
    exact later.cons spoken blank (.itself spoken) (apart rfl)
      (newline_not_mem_append gapUnbroken unbroken)

/-- A closing brace begins a line, and if one has begun it is ended first. -/
theorem Continued.resumes_closing {fresh afterWord : Bool} (role : roleOf token = .closing)
    (unbroken : 0x0A ∉ utf8 token.text) (nested : (depth + 1 : Nat) = before.balance)
    (later : Continued (before ++ [token]) token.isWord rest text) :
    Resumes before fresh afterWord (token :: rest)
      ((if fresh then [] else newline) ++ indent depth ++ utf8 token.text ++ text) := by
  have spoken : token.kind ≠ .doc := mt roleOf_eq_comment.mpr (by simp [role])
  have nestedLine : depth = before.lineDepth token := by
    rw [Stream.lineDepth_of_closing (roleOf_eq_closing.mp role)]
    omega
  have line := later.ruled_cons spoken unbroken nestedLine
  cases fresh with
  | true => exact line
  | false => exact .ended line

/-- A semicolon that is left out does not show on the line. -/
theorem Continued.dropping {afterWord : Bool} (dropped : token.isPunct ";")
    (later : Continued (before ++ [token]) token.isWord rest text) :
    Continued before afterWord (token :: rest) text := by
  have spoken : token.kind ≠ .doc := by simp [(kind_text_of_isPunct dropped).1]
  refine later.cons spoken .nil (.omitted dropped) (fun _ isWord => ?_) List.not_mem_nil
  rw [isWord_eq_false_of_isPunct dropped] at isWord
  cases isWord

/-! ### The count of open braces behind a token -/

theorem nested_opening (nested : depth = before.balance) (role : roleOf token = .opening) :
    (depth + 1 : Nat) = Stream.balance (before ++ [token]) := by
  rw [Stream.balance_concat, Token.braceChange_of_opening (roleOf_eq_opening.mp role), ← nested]
  rfl

theorem nested_closing (nested : (depth + 1 : Nat) = before.balance)
    (role : roleOf token = .closing) : depth = Stream.balance (before ++ [token]) := by
  rw [Stream.balance_concat, Token.braceChange_of_closing (roleOf_eq_closing.mp role), ← nested]
  omega

theorem nested_other (nested : depth = before.balance) (notOpening : roleOf token ≠ .opening)
    (notClosing : roleOf token ≠ .closing) : depth = Stream.balance (before ++ [token]) := by
  rw [Stream.balance_concat, braceChange_of_role notOpening notClosing, Int.add_zero, nested]

end Tokens

/-- What is laid out for a steady stream are ruled lines. -/
theorem resumes_of_lays {depth : Nat} {fresh : Bool} {previous : Token} {before stream : Stream}
    {text : Bytes} (steady : Steady fresh stream) (nested : depth = before.balance)
    (fits : fresh = false → ∀ next ∈ stream.head?, previous.Fits next)
    (lays : Lays depth fresh previous stream text) :
    Resumes before fresh previous.isWord stream text := by
  induction lays generalizing before with
  | @done fresh =>
    cases fresh with
    | true => exact .empty .nil
    | false => exact .ended (.empty .nil)
  | @comment depth fresh _ token rest text role _ inductionHypothesis =>
    have isDoc := roleOf_eq_comment.mp role
    obtain rfl : fresh = true := steady.starts token rfl isDoc
    have same : depth = Stream.balance (before ++ [token]) :=
      nested_other nested (by simp [role]) (by simp [role])
    have later := inductionHypothesis (steady.tail (by simp [role])) same nofun
    exact ruled_comment isDoc nested later
  | @opening depth fresh _ token rest text role _ inductionHypothesis =>
    obtain rfl : fresh = false := steady.opens token rfl (roleOf_eq_opening.mp role)
    have later := inductionHypothesis (steady.tail (by simp [role])) (nested_opening nested role)
      nofun
    exact (Continued.ended later).resumes (by simp [role]) (by simp [role])
      (steady.text_unbroken (by simp [role])) nested .space (by decide)
      fun _ _ _ => List.cons_ne_nil _ _
  | @closing outer fresh _ token rest text role _ _ inductionHypothesis =>
    have later := inductionHypothesis (steady.tail_closing (by simp [role]))
      (nested_closing nested role) fun _ => (List.isChain_cons.mp steady.chain).1
    exact (later.lineEnd outer).resumes_closing role (steady.text_unbroken (by simp [role])) nested
  | @closingDropping outer fresh _ token next rest text role dropped _ inductionHypothesis =>
    have nextRole := roleOf_eq_terminator.mpr dropped
    have nextSteady := steady.tail (by simp [role])
    have outside : outer = Stream.balance (before ++ [token] ++ [next]) :=
      nested_other (nested_closing nested role) (by simp [nextRole]) (by simp [nextRole])
    have later := inductionHypothesis (nextSteady.tail_closing (by simp [nextRole])) outside
      fun _ => (List.isChain_cons.mp nextSteady.chain).1
    exact ((later.lineEnd outer).dropping dropped).resumes_closing role
      (steady.text_unbroken (by simp [role])) nested
  | @terminator depth fresh _ token rest text role _ inductionHypothesis =>
    have same : depth = Stream.balance (before ++ [token]) :=
      nested_other nested (by simp [role]) (by simp [role])
    have later := inductionHypothesis (steady.tail (by simp [role])) same nofun
    have ended : Continued (before ++ [token]) token.isWord rest
        (newline ++ separation depth rest ++ text) := by
      rw [List.append_assoc]
      exact .ended (ruled_separation depth rest later)
    refine ended.resumes (by simp [role]) (by simp [role]) (steady.text_unbroken (by simp [role]))
      nested .nil List.not_mem_nil fun _ _ isWord => ?_
    rw [isWord_eq_false_of_isPunct (roleOf_eq_terminator.mp role)] at isWord
    cases isWord
  | @word depth fresh previous token rest text role _ inductionHypothesis =>
    have same : depth = Stream.balance (before ++ [token]) :=
      nested_other nested (by simp [role]) (by simp [role])
    have later := inductionHypothesis (steady.tail_word role) same
      fun _ => (List.isChain_cons.mp steady.chain).1
    have gapUnbroken : 0x0A ∉ if spaced previous token then space else [] := by
      split <;> decide
    refine Continued.resumes (by simp [role]) (by simp [role])
      (steady.text_unbroken (by simp [role])) nested (.ite .space .nil) gapUnbroken ?_ later
    intro begun afterWord isWord
    have loose := (fits begun token rfl).apart afterWord isWord
    rw [if_pos (spaced_of_isWord afterWord isWord loose)]
    exact List.cons_ne_nil _ _

/-- Where every block has a head and all neighbours fit, the text consists of ruled lines. -/
theorem ruled_of_headed {stream : Stream} {text : Bytes} (lined : Lined stream)
    (headed : Headed stream)
    (unbroken : ∀ token ∈ stream, token.kind ≠ .doc → 0x0A ∉ utf8 token.text)
    (laid : layout stream = .ok text) : Ruled [] stream (DocComment.splitLines text) := by
  have leading : Leading true stream := ⟨fun _ _ _ => rfl, lined.chain⟩
  have opens : ∀ next ∈ stream.head?, next.isPunct openBrace → true = false :=
    fun next member isOpening => absurd isOpening (headed.starts next member)
  exact resumes_of_lays ⟨leading, opens, headed.chain, unbroken⟩ rfl nofun
    (layout_eq_ok_iff.mp laid)

end Layout

/-- The lines of a module are ruled: each of them is empty, or it has one tab for each brace that is
open there and then its first token or the sign of a comment. -/
theorem Lower.module_lines_indented {options : Options} {table : Table} {source : Module}
    {stream : Stream} (lowered : (Lower.module options table source).2 = .ok stream)
    (unbroken : ∀ token ∈ stream, token.kind ≠ .doc → 0x0A ∉ utf8 token.text) :
    ∃ text, Layout.layout stream = .ok text ∧ Ruled [] stream (DocComment.splitLines text) ∧
      ∀ line ∈ DocComment.splitLines text, line = [] ∨ Indented [] stream line := by
  obtain ⟨text, laid⟩ := Layout.layout_of_matched (matched_module lowered)
  have ruled := Layout.ruled_of_headed (lined_module lowered) (headed_module lowered) unbroken laid
  exact ⟨text, laid, ruled, ruled.indented⟩

/-- A function with a documentation text and two branches. -/
theorem Lower.module_lines_indented_of_branches :
    let source : Module := ⟨[.functionDef { FunctionOf.empty "f" with
      body := [.expr (.constant (.str "Stops.")),
        .ifElse (.name "x") [.ret (.name "y")] [.ret (.name "z")]] }]⟩
    ∃ stream, (Lower.module {} Table.new source).2 = .ok stream ∧
      (∀ token ∈ stream, token.kind ≠ .doc → 0x0A ∉ utf8 token.text) ∧
      ∃ text, Layout.layout stream = .ok text ∧ Ruled [] stream (DocComment.splitLines text) ∧
        ∀ line ∈ DocComment.splitLines text, line = [] ∨ Indented [] stream line := by
  intro source
  obtain ⟨stream, lowered, unbroken⟩ : ∃ stream, (Lower.module {} Table.new source).2 = .ok stream ∧
      ∀ token ∈ stream, token.kind ≠ .doc → 0x0A ∉ utf8 token.text := by
    refine ⟨_, rfl, ?_⟩
    decide +kernel
  exact ⟨stream, lowered, unbroken, Lower.module_lines_indented lowered unbroken⟩

end Oxide
