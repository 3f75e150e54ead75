/-
This file proves that nothing waits outside of an asynchronous function. An expression waits only
in a context that allows it, and the same context puts `async` in front of the function, however
functions and blocks are nested. So the word `await` stands in the block of a function, and the
innermost function around it is asynchronous.
-/

import Oxide.Proofs.Marks
import Oxide.Proofs.NestedFunctions

namespace Oxide

/-! ### Streams in which nothing waits -/

/-- A stream without the word that waits. -/
def Waitless (stream : Stream) : Prop :=
  ∀ token ∈ stream.bare, token.isKeyword "await" = false

namespace Waitless

variable {stream first second : Stream}

@[simp] theorem nil : Waitless [] := List.forall_mem_nil _

/-- Nothing waits in a stream if nothing does in its parts. -/
@[simp] theorem append_iff : Waitless (first ++ second) ↔ Waitless first ∧ Waitless second := by
  rw [Waitless, Stream.bare_append, List.forall_mem_append]
  rfl

@[simp] theorem join_iff : Waitless (Stream.join stream) ↔ Waitless stream := by
  rw [Waitless, Stream.bare_join]
  rfl

theorem concat_iff {token : Token} :
    Waitless (stream ++ [token]) ↔ Waitless stream ∧ token.isKeyword "await" = false :=
  append_iff.trans (and_congr_right fun _ => List.forall_mem_singleton)

@[simp] theorem punct_iff {text : String} : Waitless (stream.punct text) ↔ Waitless stream :=
  concat_iff.trans (and_iff_left rfl)

@[simp] theorem ident_iff {name : String} : Waitless (stream.ident name) ↔ Waitless stream :=
  concat_iff.trans (and_iff_left rfl)

@[simp] theorem literal_iff {text : String} : Waitless (stream.literal text) ↔ Waitless stream :=
  concat_iff.trans (and_iff_left rfl)

@[simp] theorem doc_iff {text : String} : Waitless (stream.doc text) ↔ Waitless stream :=
  concat_iff.trans (and_iff_left rfl)

@[simp] theorem str_iff {text : String} : Waitless (stream.str text) ↔ Waitless stream :=
  literal_iff

/-- The one keyword that waits is `await`. -/
@[simp] theorem keyword_iff {word : String} :
    Waitless (stream.keyword word) ↔ Waitless stream ∧ word ≠ "await" := by
  refine concat_iff.trans (and_congr_right fun _ => ?_)
  simp [Token.isKeyword]

@[simp] theorem bang_iff {name : String} : Waitless (stream.bang name) ↔ Waitless stream := by
  simp [Stream.bang]

@[simp] theorem group_iff {opening closing : String} :
    Waitless (first.group opening closing second) ↔ Waitless first ∧ Waitless second := by
  unfold Stream.group
  split <;> simp

@[simp] theorem parenthesized_iff : Waitless (Lower.parenthesized stream) ↔ Waitless stream := by
  simp [Lower.parenthesized]

@[simp] theorem dotted_iff : Waitless (Lower.dotted stream) ↔ Waitless stream := by
  simp [Lower.dotted]

@[simp] theorem method_iff {name : String} :
    Waitless (Lower.method first name second) ↔ Waitless first ∧ Waitless second := by
  simp [Lower.method]

@[simp] theorem range_iff :
    Waitless (Lower.range first second) ↔ Waitless first ∧ Waitless second := by
  simp [Lower.range]

@[simp] theorem operand_iff {value : Expr} :
    Waitless (Lower.operand value stream) ↔ Waitless stream := by
  unfold Lower.operand
  split <;> simp

/-- Signs between streams wait for nothing. -/
@[simp] theorem separated_iff {sign : String} {streams : List Stream} :
    Waitless (Lower.separated sign streams) ↔ ∀ stream ∈ streams, Waitless stream := by
  fun_induction Lower.separated sign streams with
  | case1 => simp
  | case2 last => simp
  | case3 first next rest inductionHypothesis => simp [inductionHypothesis]

@[simp] theorem comma_iff {streams : List Stream} :
    Waitless (Stream.comma streams) ↔ ∀ stream ∈ streams, Waitless stream := by
  rw [Stream.comma_eq_separated, separated_iff]

@[simp] theorem path_iff {parts : List String} :
    Waitless (stream.path parts) ↔ Waitless stream := by
  fun_induction Stream.path stream parts with
  | case1 => rfl
  | case2 => simp
  | case3 _ _ _ _ inductionHypothesis => simp [inductionHypothesis]

end Waitless

namespace Ty

mutual

/-- A type has nothing that waits. -/
@[simp] theorem waitless_emit_iff : (type : Ty) → {stream : Stream} →
    (Waitless (type.emit stream) ↔ Waitless stream)
  | .named _, _ => by simp [emit]
  | .int _ _, _ => by simp [emit]
  | .float _, _ => by simp [emit]
  | .bool, _ => by simp [emit]
  | .str, _ => by simp [emit]
  | .unit, _ => by simp [emit]
  | .object _, _ => by
    rw [emit]
    split <;> simp
  | .vec item, _ => by simp [emit, closeArguments, openArguments, waitless_emit_iff item]
  | .map key value, _ => by
    simp [emit, closeArguments, openArguments, waitless_emit_iff key, waitless_emit_iff value]
  | .set item, _ => by simp [emit, closeArguments, openArguments, waitless_emit_iff item]
  | .option item, _ => by simp [emit, closeArguments, openArguments, waitless_emit_iff item]
  | .tuple items, _ => by
    rw [emit]
    split <;> simp [waitless_emitList_iff items]
  | .ref target mutable, _ => by
    rw [emit]
    cases mutable <;> simp [waitless_emit_iff target]
  | .generic _ arguments, _ => by
    simp [emit, closeArguments, openArguments, waitless_emitList_iff arguments]

/-- The types of a list wait for nothing. -/
theorem waitless_emitList_iff : (types : List Ty) → {stream : Stream} →
    (Waitless (emitList types stream) ↔ Waitless stream)
  | [], _ => by rw [emitList]
  | first :: rest, _ => by
    rw [emitList, waitless_emitTail_iff rest, waitless_emit_iff first]

theorem waitless_emitTail_iff : (types : List Ty) → {stream : Stream} →
    (Waitless (emitTail types stream) ↔ Waitless stream)
  | [], _ => by rw [emitTail]
  | first :: rest, _ => by
    rw [emitTail, waitless_emitTail_iff rest, waitless_emit_iff first, Waitless.punct_iff]

end

end Ty

/-! ### Expressions that do not wait -/

namespace Lower

theorem waitless_constant (value : Constant) : Waitless (constant value) := by
  cases value with
  | bool value => cases value <;> simp [constant]
  | float text =>
    rw [constant, float]
    split <;> simp
  | _ => simp [constant]

theorem waitless_name (id : String) : Waitless (name id) := by
  unfold name
  split_ifs
  · exact waitless_constant _
  · exact waitless_constant _
  · exact waitless_constant _
  · simp

theorem waitless_operands {items : List Expr} {streams : List Stream}
    (all : List.Forall₂ (fun _ stream => Waitless stream) items streams) :
    ∀ stream ∈ List.zipWith operand items streams, Waitless stream := by
  induction all with
  | nil => exact List.forall_mem_nil _
  | cons first _ inductionHypothesis =>
    exact List.forall_mem_cons.mpr ⟨Waitless.operand_iff.mpr first, inductionHypothesis⟩

/-- A chain waits for nothing if its operands do not. -/
theorem waitless_comparisons {left : Expr} {first : Stream} {ops : List String}
    {rights : List Expr} {streams pieces : List Stream}
    (emitted : Comparisons left first ops rights streams pieces) (leftWaitless : Waitless first)
    (all : List.Forall₂ (fun _ stream => Waitless stream) rights streams) :
    ∀ piece ∈ pieces, Waitless piece := by
  induction emitted with
  | nil => exact List.forall_mem_nil _
  | cons single _ inductionHypothesis =>
    obtain _ | ⟨rightWaitless, restWaitless⟩ := all
    refine List.forall_mem_cons.mpr ⟨?_, inductionHypothesis rightWaitless restWaitless⟩
    cases single <;> simp [leftWaitless, rightWaitless]

theorem waitless_conjunction {pieces : List Stream} (all : ∀ piece ∈ pieces, Waitless piece) :
    Waitless (conjunction pieces) := by
  unfold conjunction
  split
  · exact all _ List.mem_cons_self
  · simpa using all

/-- The call of a known function waits only where its arguments do. -/
theorem waitless_special {table : Table} {function : Expr} {arguments : List Expr}
    {streams : List Stream} {stream : Stream}
    (known : SpecialCall table function arguments streams stream)
    (all : List.Forall₂ (fun _ stream => Waitless stream) arguments streams) :
    Waitless stream := by
  have each := forall_mem_of_forall₂ all
  cases known with
  | print =>
    rw [printLine, Waitless.group_iff, Waitless.join_iff]
    split
    · simp
    · simpa using each
  | _ => simp_all

/-- Where waiting is not allowed, no rule of expressions brings the word in. -/
theorem waitlessRules {context : Context} {table : Table} (sync : ¬ context.isAsync) :
    ExprRules context table fun _ stream => Waitless stream where
  constant := waitless_constant
  name := waitless_name
  binaryMethod _ _ _ _ _ _ _ left right := by simp [left, right]
  binarySign _ _ _ _ _ _ _ _ left right := by simp [left, right]
  unary _ _ sign _ known value := by
    unfold unarySign? at known
    split_ifs at known <;> cases known <;> simp [value]
  logical _ _ _ _ _ values := Waitless.separated_iff.mpr (waitless_operands values)
  compare _ _ _ _ _ _ _ emitted left rights :=
    waitless_conjunction (waitless_comparisons emitted left rights)
  special _ _ _ _ known arguments := waitless_special known arguments
  call _ _ _ _ _ function arguments := by simpa [function] using forall_mem_of_forall₂ arguments
  field _ _ _ value := by simp [value]
  subscript _ _ _ _ value slice := by simp [value, slice]
  list _ _ items := by simpa using forall_mem_of_forall₂ items
  tuple _ _ items := by
    rw [Waitless.parenthesized_iff]
    split <;> simpa using forall_mem_of_forall₂ items
  await _ _ waiting _ := absurd waiting sync

/-- An expression waits only in a context that allows it. -/
theorem waitless_expr {context : Context} {table : Table} {value : Expr} {stream : Stream}
    (sync : ¬ context.isAsync) (lowered : expr context table value = .ok stream) :
    Waitless stream :=
  (waitlessRules sync).sound value stream lowered

/-! ### Signatures -/

theorem waitless_params {options : Options} {parameters : List Param} {stream : Stream}
    (lowered : params options parameters = .ok stream) : Waitless stream := by
  obtain ⟨streams, rfl, all⟩ := typedParams_of_params lowered
  refine Waitless.comma_iff.mpr (forall_mem_of_forall₂ (all.imp ?_))
  rintro parameter _ ⟨type, rfl⟩
  simp [typedParam]

theorem waitless_result {options : Options} {returns : Expr} {stream : Stream}
    (lowered : result options returns = .ok stream) : Waitless stream := by
  obtain rfl | ⟨type, rfl⟩ := nil_or_type_of_result lowered
  · exact .nil
  · simp

/-- The head of a function waits for nothing. -/
theorem waitless_head {options : Options} {context : Context} {definition : FunctionDef}
    {clause output : Stream} (clauseWaitless : Waitless clause) (outputWaitless : Waitless output) :
    Waitless (head context options definition clause output) := by
  have visible (visibility : Visibility) (stream : Stream) (waitless : Waitless stream) :
      Waitless (visibility.emit stream) := by
    cases visibility <;> simp [Visibility.emit, waitless]
  have qualified (qualifier : Qualifier) (stream : Stream) (waitless : Waitless stream) :
      Waitless (qualifier.emit stream) := by
    cases qualifier <;> simp [Qualifier.emit, waitless]
  simp [head, clauseWaitless, outputWaitless, visible, qualified]

end Lower

/-! ### Waiting at a spot -/

/-- Whether the innermost function of the blocks with the given heads is asynchronous. -/
def InAsync (around : List Stream) : Prop :=
  ∃ head, around.find? Lower.isFunctionHead = some head ∧
    [.keyword "async", .keyword "fn"] <:+: head

/-- A block inside a function does not change what waits in it. -/
theorem inAsync_cons_of_not_isFunctionHead {head : Stream} {around : List Stream}
    (other : ¬ Lower.isFunctionHead head) : InAsync (head :: around) ↔ InAsync around := by
  rw [InAsync, List.find?_cons_of_neg other, InAsync]

/-- The head of an asynchronous function is the head of a function. -/
theorem isFunctionHead_of_async {head : Stream}
    (async : [.keyword "async", .keyword "fn"] <:+: head) : Lower.isFunctionHead head :=
  List.any_eq_true.mpr ⟨.keyword "fn", async.subset (by simp), by decide⟩

/-- The innermost function decides, whatever stands around it. -/
theorem inAsync_cons_of_async {head : Stream} (around : List Stream)
    (async : [.keyword "async", .keyword "fn"] <:+: head) : InAsync (head :: around) :=
  ⟨head, List.find?_cons_of_pos (isFunctionHead_of_async async), async⟩

namespace Spot

/-- The heads of the blocks around each word that waits. -/
def waits : Spot → Stream → List (List Stream)
  | _, [] => []
  | spot, token :: rest =>
    (if token.isKeyword "await" then [spot.around] else []) ++ waits (spot.step token) rest

theorem walk_append (spot : Spot) (first second : Stream) :
    spot.walk (first ++ second) = (spot.walk first).walk second :=
  List.foldl_append

/-- The spots where a stream waits are those of its parts, each from where it starts. -/
theorem waits_append (spot : Spot) (first second : Stream) :
    spot.waits (first ++ second) = spot.waits first ++ (spot.walk first).waits second := by
  induction first generalizing spot with
  | nil => rfl
  | cons token rest inductionHypothesis =>
    rw [List.cons_append, waits, inductionHypothesis, waits, walk_cons, List.append_assoc]

/-- Every `await` is among the spots where the stream waits. -/
theorem around_mem_waits (spot : Spot) (before : Stream) {token : Token} (after : Stream)
    (waiting : token.isKeyword "await") :
    (spot.walk before).around ∈ spot.waits (before ++ token :: after) := by
  rw [waits_append, waits, if_pos waiting]
  exact List.mem_append_right _ List.mem_cons_self

variable {spot : Spot} {stream : Stream}

theorem walk_of_not_divides (within : ∀ token ∈ stream, ¬ token.divides) :
    spot.walk stream = ⟨spot.around, spot.current ++ stream⟩ := by
  induction stream generalizing spot with
  | nil => rw [List.append_nil]; rfl
  | cons token rest inductionHypothesis =>
    rw [List.forall_mem_cons] at within
    rw [walk_cons, step_of_not_divides within.1, inductionHypothesis within.2, List.append_assoc,
      List.singleton_append]

/-- Where nothing divides, all waiting is done in the same block. -/
theorem waits_of_not_divides (within : ∀ token ∈ stream, ¬ token.divides) {around : List Stream}
    (member : around ∈ spot.waits stream) :
    around = spot.around ∧ ∃ token ∈ stream, token.isKeyword "await" := by
  induction stream generalizing spot with
  | nil => cases member
  | cons token rest inductionHypothesis =>
    rw [List.forall_mem_cons] at within
    rw [waits, step_of_not_divides within.1, List.mem_append] at member
    rcases member with here | later
    · split at here
      · exact ⟨List.mem_singleton.mp here, token, List.mem_cons_self, ‹_›⟩
      · cases here
    · obtain ⟨same, other, otherMember, waiting⟩ := inductionHypothesis within.2 later
      exact ⟨same, other, List.mem_cons_of_mem _ otherMember, waiting⟩

end Spot

/-! ### Parts of a statement -/

/-- A bare stream that stays within one statement, opens no function, and waits only if it is
allowed to. -/
structure Inline (waiting : Bool) (stream : Stream) : Prop where
  neutral : Neutral stream
  within : ∀ token ∈ stream, ¬ token.divides
  noFunction : ∀ token ∈ stream, ¬ token.isKeyword "fn"
  allowed : ∀ token ∈ stream, token.isKeyword "await" → waiting

namespace Inline

variable {waiting : Bool} {stream first second : Stream}

theorem nil : Inline waiting [] where
  neutral := .nil
  within := List.forall_mem_nil _
  noFunction := List.forall_mem_nil _
  allowed := List.forall_mem_nil _

theorem append (firstInline : Inline waiting first) (secondInline : Inline waiting second) :
    Inline waiting (first ++ second) where
  neutral := firstInline.neutral.append secondInline.neutral
  within := List.forall_mem_append.mpr ⟨firstInline.within, secondInline.within⟩
  noFunction := List.forall_mem_append.mpr ⟨firstInline.noFunction, secondInline.noFunction⟩
  allowed := List.forall_mem_append.mpr ⟨firstInline.allowed, secondInline.allowed⟩

theorem sign {text : String}
    (free : ¬ (Delimiter.delimits (.punct text) || (Token.punct text).divides)) :
    Inline waiting [.punct text] := by
  rw [Bool.or_eq_true, not_or] at free
  refine ⟨.single (Bool.eq_false_iff.mpr free.1), ?_, ?_, ?_⟩
  · exact List.forall_mem_singleton.mpr free.2
  · exact List.forall_mem_singleton.mpr nofun
  · exact List.forall_mem_singleton.mpr nofun

theorem word {text : String} (other : text ∉ ["fn", "await"]) :
    Inline waiting [.keyword text] := by
  simp only [List.mem_cons, List.not_mem_nil, or_false, not_or] at other
  refine ⟨.keyword text, ?_, ?_, ?_⟩
  · exact List.forall_mem_singleton.mpr nofun
  · exact List.forall_mem_singleton.mpr (by simp [Token.isKeyword, Token.keyword, other])
  · exact List.forall_mem_singleton.mpr (by simp [Token.isKeyword, Token.keyword, other])

/-- A phrase is inline if waiting is allowed wherever it waits. -/
theorem phrase (phrase : Phrase stream)
    (allowed : ∀ token ∈ stream, token.isKeyword "await" → waiting) : Inline waiting stream where
  neutral := .phrase phrase
  within := phrase.calm.not_divides
  noFunction token member := by
    rw [phrase.isKeyword_eq_false (by decide) token member]
    exact Bool.false_ne_true
  allowed := allowed

theorem of_waitless (phrase : Phrase stream.bare) (waitless : Waitless stream) :
    Inline waiting stream.bare :=
  .phrase phrase fun token member waits => by
    rw [waitless token member] at waits
    cases waits

theorem ident (name : String) : Inline waiting [.ident name] :=
  @of_waitless waiting (Stream.ident [] name) (.ident name) (by simp)

theorem literal (text : String) : Inline waiting [.literal text] :=
  @of_waitless waiting (Stream.literal [] text) (.literal text) (by simp)

theorem forall_mem_parenthesized {property : Token → Prop} :
    (∀ token ∈ Token.punct "(" :: (stream ++ [.punct ")"]), property token) ↔
      property (.punct "(") ∧ (∀ token ∈ stream, property token) ∧ property (.punct ")") := by
  rw [List.forall_mem_cons, List.forall_mem_append, List.forall_mem_singleton]

theorem parenthesized (inline : Inline waiting stream) :
    Inline waiting (.punct "(" :: (stream ++ [.punct ")"])) where
  neutral := .enclosed .parenthesis inline.neutral
  within := forall_mem_parenthesized.mpr ⟨by decide, inline.within, by decide⟩
  noFunction := forall_mem_parenthesized.mpr ⟨by decide, inline.noFunction, by decide⟩
  allowed := forall_mem_parenthesized.mpr ⟨nofun, inline.allowed, nofun⟩

/-- No function starts in inline tokens. -/
theorem not_isFunctionHead (inline : Inline waiting stream) : ¬ Lower.isFunctionHead stream := by
  intro head
  obtain ⟨token, member, isFunction⟩ := List.any_eq_true.mp head
  exact inline.noFunction token member isFunction

end Inline

/-! ### Streams that wait inside asynchronous functions -/

theorem not_isFunctionHead_append {first second : Stream} :
    ¬ Lower.isFunctionHead (first ++ second) ↔
      ¬ Lower.isFunctionHead first ∧ ¬ Lower.isFunctionHead second := by
  simp [Lower.isFunctionHead, List.any_append]

/-- A bare stream that waits only inside asynchronous functions that it opens itself, or, if it is
allowed to, in one around it; and that leaves no head of a function without its block. -/
structure Sheltered (waiting : Bool) (stream : Stream) : Prop where
  neutral : Neutral stream
  closed : ∀ spot : Spot, ¬ Lower.isFunctionHead spot.current →
    ¬ Lower.isFunctionHead (spot.walk stream).current
  inAsync : ∀ spot : Spot, ¬ Lower.isFunctionHead spot.current →
    (waiting → InAsync spot.around) → ∀ around ∈ spot.waits stream, InAsync around

namespace Sheltered

variable {waiting : Bool} {stream first second : Stream}

theorem inline (inline : Inline waiting stream) : Sheltered waiting stream where
  neutral := inline.neutral
  closed spot noHead := by
    rw [Spot.walk_of_not_divides inline.within, not_isFunctionHead_append]
    exact ⟨noHead, inline.not_isFunctionHead⟩
  inAsync spot _ outer around member := by
    obtain ⟨rfl, token, tokenMember, waits⟩ := Spot.waits_of_not_divides inline.within member
    exact outer (inline.allowed token tokenMember waits)

theorem append (firstSheltered : Sheltered waiting first)
    (secondSheltered : Sheltered waiting second) : Sheltered waiting (first ++ second) where
  neutral := firstSheltered.neutral.append secondSheltered.neutral
  closed spot noHead := by
    rw [Spot.walk_append]
    exact secondSheltered.closed _ (firstSheltered.closed spot noHead)
  inAsync spot noHead outer := by
    rw [Spot.waits_append, List.forall_mem_append]
    refine ⟨firstSheltered.inAsync spot noHead outer, ?_⟩
    refine secondSheltered.inAsync _ (firstSheltered.closed spot noHead) ?_
    rwa [firstSheltered.neutral.around_walk]

theorem flatten {streams : List Stream} (all : ∀ stream ∈ streams, Sheltered waiting stream) :
    Sheltered waiting streams.flatten := by
  induction streams with
  | nil => exact inline .nil
  | cons first rest inductionHypothesis =>
    rw [List.forall_mem_cons] at all
    exact append all.1 (inductionHypothesis all.2)

/-- The end of a statement. -/
theorem semicolon : Sheltered waiting [.punct ";"] where
  neutral := .single (by decide)
  closed _ _ := Bool.false_ne_true
  inAsync _ _ _ := List.forall_mem_nil _

/-- A block waits as its inside does in its place; its head stands outside. -/
theorem block {inner : Bool} (head : Stream) (headNeutral : Neutral head)
    (within : ∀ token ∈ head, ¬ token.divides)
    (allowed : ∀ token ∈ head, token.isKeyword "await" → waiting)
    (enters : ∀ around current, ¬ Lower.isFunctionHead current → (waiting → InAsync around) →
      inner → InAsync ((current ++ head) :: around))
    (sheltered : Sheltered inner stream) :
    Sheltered waiting (head ++ .punct openBrace :: (stream ++ [.punct closeBrace])) where
  neutral := .append headNeutral (.enclosed .brace sheltered.neutral)
  closed spot noHead := by
    rw [Spot.walk_append, Spot.walk_cons, Spot.walk_append]
    exact Bool.false_ne_true
  inAsync spot noHead outer := by
    rw [Spot.waits_append, Spot.walk_of_not_divides within, Spot.waits, Spot.step_openBrace,
      Spot.waits_append]
    simp only [List.forall_mem_append]
    -- Neither brace waits, which leaves the head and the inside, where a statement starts anew.
    refine ⟨fun around member => ?_, List.forall_mem_nil _, ?_, List.forall_mem_nil _⟩
    · obtain ⟨rfl, token, tokenMember, waits⟩ := Spot.waits_of_not_divides within member
      exact outer (allowed token tokenMember waits)
    · exact sheltered.inAsync ⟨_, []⟩ Bool.false_ne_true (enters _ _ noHead outer)

/-- What is right where waiting is not allowed is right where it is. -/
theorem mono {first second : Bool} (sheltered : Sheltered first stream)
    (more : first → second) : Sheltered second stream where
  neutral := sheltered.neutral
  closed := sheltered.closed
  inAsync spot noHead outer := sheltered.inAsync spot noHead fun waits => outer (more waits)

end Sheltered

/-! ### Statements -/

namespace Lower

variable {options : Options} {context : Context} {table : Table} {waiting : Bool}

/-- An expression is inline, and waits in an asynchronous context only. -/
theorem inline_expr {value : Expr} {stream : Stream}
    (lowered : expr context table value = .ok stream) : Inline context.isAsync stream.bare := by
  by_cases async : context.isAsync
  · exact .phrase (phrase_expr lowered) fun _ _ _ => async
  · exact .of_waitless (phrase_expr lowered) (waitless_expr async lowered)

theorem inline_boundPattern (names : List String) : Inline waiting (boundPattern names).bare :=
  .of_waitless (phrase_boundPattern names) (by simp [boundPattern])

theorem inline_newVariable (id : String) (type? : Option Ty) :
    Inline waiting (newVariable id type?).bare := by
  rw [bare_newVariable]
  refine .append (.append (.word (by decide))
    (.append (.word (by decide)) (.ident id))) ?_
  cases type? with
  | none => exact .nil
  | some type =>
    exact .append (.sign (by decide)) (.of_waitless (Ty.phrase_emit type) (by simp))

/-- The place of an assignment is inline, and waits in an asynchronous context only. -/
theorem inline_place {type? : Option Ty} {place : Expr} {stream : Stream}
    (placed : Place context table type? place stream) : Inline context.isAsync stream.bare := by
  cases placed with
  | bound id _ => exact .ident id
  | fresh id _ => exact inline_newVariable id type?
  | boundTuple names _ =>
    rw [Stream.bare_parenthesized]
    exact (inline_boundPattern names).parenthesized
  | freshTuple names _ _ =>
    rw [Stream.bare_group, Stream.bare_join]
    exact .append (.word (by decide)) (.parenthesized
      (.of_waitless (phrase_freshPattern names) (by simp [freshPattern])))
  | field _ _ _ lowered => exact inline_expr lowered
  | subscript _ _ _ lowered => exact inline_expr lowered

theorem inline_assign {place stream : Stream} {sign : String}
    (placeInline : Inline waiting place.bare)
    (free : ¬ (Delimiter.delimits (.punct sign) || (Token.punct sign).divides))
    (streamInline : Inline waiting stream.bare) :
    Inline waiting (place.punct sign ++ stream).bare := by
  rw [Stream.bare_append, Stream.bare_punct]
  exact .append (.append placeInline (.sign free)) streamInline

theorem inline_loopPlace {place : Expr} {names : List String} {pattern : Stream}
    (placed : LoopPlace place names pattern) : Inline waiting pattern.bare := by
  cases placed with
  | single id => exact .ident id
  | several names =>
    rw [Stream.bare_parenthesized]
    exact (inline_boundPattern names).parenthesized

/-- A statement that stops is inline if its arguments are. -/
theorem inline_stopping {name : String} {arguments : Stream}
    (inline : Inline waiting arguments.bare) : Inline waiting (stopping name arguments).bare := by
  rw [stopping, Stream.bare_group, Stream.bare_join]
  exact .append (.of_waitless (phrase_bang name) (by simp)) inline.parenthesized

theorem inline_message {text : String} {stream : Stream} (inline : Inline waiting stream.bare) :
    Inline waiting ((Stream.str [] text).punct "," ++ stream).bare :=
  inline_assign (.literal _) (by decide) inline

/-- A statement that is written on one line stays within it. -/
theorem inline_of_isSimple {value : Stmt} {stream : Stream} (simple : isSimple value)
    (emitted : Emits options (.stmt value) context table stream) :
    Inline context.isAsync stream.bare := by
  cases emitted with
  | functionDef => cases simple
  | asyncFunctionDef => cases simple
  | expr lowered => exact inline_expr lowered
  | assign placed lowered =>
    exact inline_assign (inline_place placed) (by decide) (inline_expr lowered)
  | augSign known placed lowered =>
    have free : ∀ sign ∈ ["+", "-", "*", "/", "%", "<<", ">>", "|", "^", "&"],
        ¬ (Delimiter.delimits (.punct (sign ++ "=")) || (Token.punct (sign ++ "=")).divides) := by
      decide
    exact inline_assign (inline_expr placed) (free _ (mem_of_binarySign? known))
      (inline_expr lowered)
  | augMethod _ _ placed lowered =>
    exact inline_assign (inline_expr placed) (by decide) (inline_expr lowered)
  | declare _ _ _ => exact inline_newVariable _ _
  | silent _ _ _ => exact .nil
  | annAssign _ _ placed lowered =>
    exact inline_assign (inline_place placed) (by decide) (inline_expr lowered)
  | returnNothing _ => exact .word (by decide)
  | returnValue lowered => exact .append (.word (by decide)) (inline_expr lowered)
  | ifOnly => cases simple
  | ifFurther => cases simple
  | ifElse => cases simple
  | forever => cases simple
  | whileLoop => cases simple
  | forLoop => cases simple
  | pass => exact .nil
  | breakLoop => exact .word (by decide)
  | continueLoop => exact .word (by decide)
  | raiseNothing => exact inline_stopping .nil
  | raiseName => exact inline_stopping (.literal _)
  | raiseMessage lowered => exact inline_stopping (inline_message (inline_expr lowered))
  | raiseValue lowered => exact inline_stopping (inline_message (inline_expr lowered))
  | assertOnly tested _ => exact inline_stopping (inline_expr tested)
  | assertMessage tested lowered =>
    refine inline_stopping (inline_assign ?_ (by decide) (inline_expr lowered))
    rw [Stream.bare_str, Stream.bare_punct]
    exact .append (.append (inline_expr tested) (.sign (by decide))) (.literal _)

/-- A block is sheltered if its head is inline and its inside is sheltered. -/
theorem sheltered_braced {opened inner : Stream} (inline : Inline waiting opened.bare)
    (sheltered : Sheltered waiting inner.bare) :
    Sheltered waiting (braced opened inner).bare := by
  rw [braced, Stream.bare_group]
  refine .block _ inline.neutral inline.within inline.allowed ?_ sheltered
  intro around current noHead outer waits
  rw [inAsync_cons_of_not_isFunctionHead
    (not_isFunctionHead_append.mpr ⟨noHead, inline.not_isFunctionHead⟩)]
  exact outer waits

/-- The declarations in front of a body wait for nothing. -/
theorem sheltered_front (table : Table) (definition : FunctionDef) :
    Sheltered waiting (frontTokens options table definition).bare := by
  refine front_induction (motive := fun stream => Sheltered waiting stream.bare) (.inline .nil)
    ?_ ?_ options _
  · intro name type?
    rw [Stream.bare_punct]
    exact .append (.inline (inline_newVariable name type?)) .semicolon
  · intro first second firstSheltered secondSheltered
    rw [Stream.bare_append]
    exact .append firstSheltered secondSheltered

/-- A function that allows waiting says so in its head. -/
theorem async_infix_head {definition : FunctionDef} (clause output : Stream)
    (async : context.isAsync) :
    [.keyword "async", .keyword "fn"] <:+:
      (head context options definition clause output).bare := by
  have qualified : Qualifier.ofContext context = .async := if_pos async
  simp only [head, qualified, Qualifier.emit, Stream.bare_append, Stream.bare_group,
    Stream.bare_join, Stream.bare_ident, Stream.bare_keyword]
  exact ⟨_, _ :: _, by simp only [List.append_assoc, List.cons_append, List.nil_append]; rfl⟩

/-- A function waits in its own block only, and there only if it is asynchronous. -/
theorem sheltered_function {definition : FunctionDef} {clause output inner : Stream}
    (clauseLowered : params options definition.params = .ok clause)
    (outputLowered : result options definition.returns = .ok output)
    (sheltered : Sheltered context.isAsync inner.bare) :
    Sheltered false (braced (head context options definition clause output) inner).bare := by
  have waitless : Waitless (head context options definition clause output) :=
    waitless_head (waitless_params clauseLowered) (waitless_result outputLowered)
  rw [braced, Stream.bare_group]
  refine .block _ (neutral_head clauseLowered outputLowered)
    (calm_head clauseLowered outputLowered).not_divides ?_ ?_ sheltered
  · exact fun token member waits => (waitless token member).symm.trans waits
  · intro around current _ _ async
    exact inAsync_cons_of_async _
      ((async_infix_head clause output async).trans (List.suffix_append _ _).isInfix)

/-- Whether a piece may wait outside of the functions that it opens. -/
def Piece.mayWait : Piece → Context → Bool
  | .function _, _ => false
  | _, context => context.isAsync

/-- Everything that is emitted waits inside asynchronous functions. -/
theorem sheltered_emits {piece : Piece} {stream : Stream}
    (emitted : Emits options piece context table stream) :
    Sheltered (piece.mayWait context) stream.bare := by
  have whole := emitted
  induction emitted with
  -- A function needs nothing of what is around it, whether it inherits the context or not.
  | functionDef _ inner sheltered => exact (sheltered inner).mono nofun
  | asyncFunctionDef _ inner sheltered => exact (sheltered inner).mono nofun
  | ifOnly tested inner body =>
    exact sheltered_braced (.append (.word (by decide)) (inline_expr tested)) (body inner)
  | ifFurther tested inner other body further =>
    rw [Stream.bare_append, Stream.bare_keyword]
    exact .append (.append
      (sheltered_braced (.append (.word (by decide)) (inline_expr tested)) (body inner))
      (.inline (.word (by decide)))) (further other)
  | ifElse _ _ tested inner other body orelse =>
    rw [bare_braced_else]
    exact .append
      (sheltered_braced (.append (.word (by decide)) (inline_expr tested)) (body inner))
      (sheltered_braced (.word (by decide)) (orelse other))
  | forever _ inner body => exact sheltered_braced (.word (by decide)) (body inner)
  | whileLoop tested inner body =>
    exact sheltered_braced (.append (.word (by decide)) (inline_expr tested)) (body inner)
  | forLoop placed lowered inner body =>
    refine sheltered_braced ?_ (body inner)
    rw [Stream.bare_append, Stream.bare_keyword]
    exact .append (.append (.append (.word (by decide)) (inline_loopPlace placed))
      (.word (by decide))) (inline_expr lowered)
  | blockNil => exact .inline .nil
  | blockCons inner later first rest =>
    rw [Stream.bare_append, Stream.bare_punct]
    exact .append (.append (first inner) .semicolon) (rest later)
  | function _ clauseLowered outputLowered inner body =>
    refine sheltered_function clauseLowered outputLowered ?_
    rw [Stream.bare_append]
    exact .append (sheltered_front _ _) (body inner)
  | _ => exact .inline (inline_of_isSimple rfl whole)

theorem sheltered_runtimeLine : Sheltered waiting (runtimeLine options).bare := by
  unfold runtimeLine
  split
  · simp only [Stream.bare_append, Stream.bare_keyword, Stream.bare_punct, Stream.bare_join]
    exact .append (.inline (.word (by decide))) (.append (.inline (.append (.append
      (.of_waitless (Ty.phrase_path _) (by simp)) (.sign (by decide)))
      (.sign (by decide)))) .semicolon)
  · exact .inline .nil

/-- A module waits inside asynchronous functions. -/
theorem sheltered_module {source : Module} {stream : Stream}
    (lowered : (module options table source).2 = .ok stream) : Sheltered false stream.bare := by
  obtain ⟨streams, itemsLowered, rfl⟩ := module_of_ok lowered
  rw [Stream.bare_append, Stream.bare, Stream.bare, List.map_flatten]
  refine .append sheltered_runtimeLine (.flatten ?_)
  rw [List.forall_mem_map]
  intro item member
  obtain ⟨_, _, itemLowered⟩ := exists_item_of_mem itemsLowered member
  exact sheltered_emits (emits_of_function _ _ _ _ itemLowered)

/-- Every word of a module that waits stands in the block of a function, and the innermost function
around it has `async` in its head. -/
theorem awaits_in_async_function {source : Module} {before after : Stream} {token : Token}
    (lowered : (module options table source).2 = .ok (before ++ token :: after))
    (waits : token.isKeyword "await") : InAsync (Spot.walk ⟨[], []⟩ before.bare).around := by
  have sheltered := sheltered_module lowered
  rw [Stream.bare_append, Stream.bare_cons] at sheltered
  refine sheltered.inAsync ⟨[], []⟩ Bool.false_ne_true nofun _ ?_
  exact Spot.around_mem_waits _ _ _ waits

/-- A loop in a function that becomes asynchronous because it is defined inside one. -/
theorem awaits_in_async_function_inherited :
    let inner : FunctionDef :=
      { FunctionOf.empty "g" with
        body := [.whileLoop (.name "open") [.expr (.await (.name "next"))] []] }
    let outer : FunctionDef := { FunctionOf.empty "f" with body := [.functionDef inner] }
    let source : Module := ⟨[.asyncFunctionDef outer]⟩
    ∃ (before after : Stream) (token : Token),
      (module {} Table.new source).2 = .ok (before ++ token :: after) ∧
        token.isKeyword "await" ∧ InAsync (Spot.walk ⟨[], []⟩ before.bare).around := by
  intro inner outer source
  obtain ⟨stream, lowered, waiting⟩ : ∃ stream, (module {} Table.new source).2 = .ok stream ∧
      stream.any fun token => token.isKeyword "await" := ⟨_, rfl, by decide +kernel⟩
  obtain ⟨token, member, waits⟩ := List.any_eq_true.mp waiting
  obtain ⟨before, after, rfl⟩ := List.append_of_mem member
  exact ⟨before, after, token, lowered, waits, awaits_in_async_function lowered waits⟩

end Lower

end Oxide
