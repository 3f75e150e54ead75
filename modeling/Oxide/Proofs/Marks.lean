/-
This file follows the marks of a stream, which the bare stream forgets. Nothing but punctuation is
left joint at the end of a piece of the output, and a word becomes joint only together with the
punctuation that follows it. `Woven` is the class of streams that are put together in this way
without documentation texts; expressions, types, signatures and simple statements are woven. Blocks
and functions put woven streams on lines, and a documentation text only stands where a line begins.
What follows for two tokens that are neighbours is said by `Token.Fits`, and it holds all along
every stream that is written.
-/

import Mathlib.Data.List.Chain
import Oxide.Proofs.ModuleEmission
import Oxide.Proofs.TypeTokens

namespace Oxide

open Lower

/-! ### Woven streams -/

/-- A stream without documentation texts in which a word is joint only before punctuation. -/
inductive Woven : Stream → Prop where
  | nil : Woven []
  | single {token : Token} (spoken : token.kind ≠ .doc)
      (loose : token.joint → token.kind = .punct) : Woven [token]
  | append {first second : Stream} (firstWoven : Woven first) (secondWoven : Woven second) :
      Woven (first ++ second)
  | closed {stream : Stream} {token : Token} (sign : token.kind = .punct) (woven : Woven stream) :
      Woven (Stream.join stream ++ [token])

namespace Woven

variable {stream first second : Stream}

theorem sign (text : String) (joint : Bool) : Woven [{ kind := .punct, text, joint }] :=
  .single (by simp) fun _ => rfl

theorem punct (woven : Woven stream) (text : String) : Woven (stream.punct text) :=
  woven.append (sign text false)

theorem keyword (woven : Woven stream) (word : String) : Woven (stream.keyword word) :=
  woven.append (.single (by simp) nofun)

theorem ident (woven : Woven stream) (name : String) : Woven (stream.ident name) :=
  woven.append (.single (by simp) nofun)

theorem literal (woven : Woven stream) (text : String) : Woven (stream.literal text) :=
  woven.append (.single (by simp) nofun)

theorem str (woven : Woven stream) (text : String) : Woven (stream.str text) :=
  woven.literal _

/-- Punctuation may be joint with what follows. -/
theorem tied (woven : Woven stream) (text : String) : Woven (Stream.join (stream.punct text)) := by
  rw [Stream.punct, Stream.join_concat]
  exact woven.append (sign text true)

/-- What stands before punctuation may be joint with it. -/
theorem joined (woven : Woven stream) (text : String) :
    Woven (Stream.punct (Stream.join stream) text) :=
  .closed rfl woven

/-- A sign that is tied on both sides keeps a stream woven. -/
theorem joined_tied (woven : Woven stream) (text : String) :
    Woven (Stream.join (Stream.punct (Stream.join stream) text)) := by
  rw [Stream.punct, Stream.join_concat]
  exact .closed rfl woven

theorem bang (woven : Woven stream) (name : String) : Woven (stream.bang name) :=
  (woven.ident name).joined_tied "!"

/-- A group is woven if it is up to its opening delimiter and inside. -/
theorem group_of_opened {opening closing : String}
    (opened : ∀ joint, Woven (first ++ [{ kind := .punct, text := opening, joint }]))
    (inner : Woven second) : Woven (first.group opening closing (Stream.join second)) := by
  have rest : Woven (Stream.punct (Stream.join second) closing) := inner.joined closing
  unfold Stream.group
  split
  · rw [Stream.punct, List.append_assoc]
    exact (opened false).append rest
  · rw [Stream.punct, Stream.punct, Stream.join_concat, List.append_assoc]
    exact (opened true).append rest

theorem group (outer : Woven first) (opening closing : String) (inner : Woven second) :
    Woven (first.group opening closing (Stream.join second)) :=
  group_of_opened (fun joint => outer.append (sign opening joint)) inner

/-- A group can also be joined to what stands before it. -/
theorem joined_group (outer : Woven first) (opening closing : String) (inner : Woven second) :
    Woven ((Stream.join first).group opening closing (Stream.join second)) :=
  group_of_opened (fun _ => .closed rfl outer) inner

theorem parenthesized (woven : Woven stream) : Woven (parenthesized stream) :=
  group .nil "(" ")" woven

theorem dotted (woven : Woven stream) : Woven (dotted stream) :=
  woven.joined_tied "."

theorem method (receiver : Woven first) (name : String) (arguments : Woven second) :
    Woven (method first name second) :=
  (receiver.dotted.ident name).joined_group "(" ")" arguments

theorem operand (value : Expr) (woven : Woven stream) : Woven (operand value stream) := by
  unfold Lower.operand
  split
  · exact woven.parenthesized
  · exact woven

/-- Woven streams with a sign between them are woven. -/
theorem separated (text : String) {streams : List Stream}
    (all : ∀ stream ∈ streams, Woven stream) : Woven (separated text streams) := by
  fun_induction Lower.separated text streams with
  | case1 => exact .nil
  | case2 last => exact all last List.mem_cons_self
  | case3 first next rest inductionHypothesis =>
    rw [List.forall_mem_cons] at all
    exact (all.1.punct text).append (inductionHypothesis all.2)

theorem comma {streams : List Stream} (all : ∀ stream ∈ streams, Woven stream) :
    Woven (Stream.comma streams) := by
  rw [Stream.comma_eq_separated]
  exact separated "," all

theorem path (woven : Woven stream) (parts : List String) : Woven (stream.path parts) := by
  fun_induction Stream.path stream parts with
  | case1 => exact woven
  | case2 stream last => exact woven.ident last
  | case3 stream part next rest inductionHypothesis =>
    exact inductionHypothesis ((woven.ident part).joined_tied "::")

theorem openArguments (woven : Woven stream) (name : String) :
    Woven (Ty.openArguments stream name) :=
  (woven.path _).joined_tied "<"

theorem closeArguments (woven : Woven stream) : Woven (Ty.closeArguments stream) :=
  woven.joined ">"

mutual

/-- The spelling of a type keeps a stream woven, by induction over the type. -/
theorem emit : (type : Ty) → {stream : Stream} → Woven stream → Woven (type.emit stream)
  | .named _, _, woven => by
    rw [Ty.emit]
    exact woven.path _
  | .int _ _, _, woven => by
    rw [Ty.emit]
    exact woven.ident _
  | .float _, _, woven => by
    rw [Ty.emit]
    exact woven.ident _
  | .bool, _, woven => by
    rw [Ty.emit]
    exact woven.ident _
  | .str, _, woven => by
    rw [Ty.emit]
    exact woven.ident _
  | .unit, _, woven => by
    rw [Ty.emit]
    exact (woven.tied "(").punct ")"
  | .object _, _, woven => by
    rw [Ty.emit]
    split
    · exact woven.ident _
    · exact woven.path _
  | .vec item, _, woven => by
    rw [Ty.emit]
    exact (emit item (woven.openArguments _)).closeArguments
  | .map key value, _, woven => by
    rw [Ty.emit]
    exact (emit value ((emit key (woven.openArguments _)).punct ",")).closeArguments
  | .set item, _, woven => by
    rw [Ty.emit]
    exact (emit item (woven.openArguments _)).closeArguments
  | .option item, _, woven => by
    rw [Ty.emit]
    exact (emit item (woven.openArguments _)).closeArguments
  | .tuple items, _, woven => by
    have inner := emitList items (woven.tied "(")
    rw [Ty.emit]
    split
    · exact (inner.punct ",").joined ")"
    · exact inner.joined ")"
  | .ref target mutable, _, woven => by
    rw [Ty.emit]
    cases mutable with
    | false => exact emit target (woven.tied "&")
    | true => exact emit target ((woven.tied "&").keyword "mut")
  | .generic _ arguments, _, woven => by
    rw [Ty.emit]
    exact (emitList arguments (woven.openArguments _)).closeArguments

theorem emitList : (types : List Ty) → {stream : Stream} → Woven stream →
    Woven (Ty.emitList types stream)
  | [], _, woven => by rwa [Ty.emitList]
  | first :: rest, _, woven => by
    rw [Ty.emitList]
    exact emitTail rest (emit first woven)

theorem emitTail : (types : List Ty) → {stream : Stream} → Woven stream →
    Woven (Ty.emitTail types stream)
  | [], _, woven => by rwa [Ty.emitTail]
  | first :: rest, _, woven => by
    rw [Ty.emitTail]
    exact emitTail rest (emit first (woven.punct ","))

end

end Woven

/-! ### Expressions -/

namespace Lower

theorem woven_constant (value : Constant) : Woven (constant value) := by
  cases value with
  | none => exact .ident .nil _
  | bool value => cases value <;> exact .keyword .nil _
  | int text => exact .literal .nil _
  | float text =>
    rw [constant, float]
    split
    · exact .path .nil _
    · exact .literal .nil _
  | str text => exact .str .nil _

theorem woven_name (id : String) : Woven (name id) := by
  unfold name
  split_ifs
  · exact woven_constant _
  · exact woven_constant _
  · exact woven_constant _
  · exact .ident .nil _

theorem woven_operands {items : List Expr} {streams : List Stream}
    (all : List.Forall₂ (fun _ stream => Woven stream) items streams) :
    ∀ stream ∈ List.zipWith operand items streams, Woven stream := by
  induction all with
  | nil => exact List.forall_mem_nil _
  | @cons item _ _ _ first _ inductionHypothesis =>
    exact List.forall_mem_cons.mpr ⟨first.operand item, inductionHypothesis⟩

theorem woven_range {start stop : Stream} (startWoven : Woven start) (stopWoven : Woven stop) :
    Woven (range start stop) :=
  ((startWoven.joined_tied "..").append stopWoven).parenthesized

/-- One comparison is woven if its operands are. -/
theorem woven_comparison {left right : Expr} {first second piece : Stream} {op : String}
    (emitted : Comparison left first op right second piece) (leftWoven : Woven first)
    (rightWoven : Woven second) : Woven piece := by
  have contained : Woven (method (operand right second) "contains"
      (Stream.join (Stream.punct [] "&") ++ first)) :=
    (rightWoven.operand right).method "contains" ((Woven.tied .nil "&").append leftWoven)
  cases emitted with
  | contains => exact contained
  | excludes => exact (Woven.tied .nil "!").append contained
  | isNone => exact (leftWoven.operand left).method "is_none" .nil
  | isSome => exact (leftWoven.operand left).method "is_some" .nil
  | signed _ _ _ sign =>
    exact ((leftWoven.operand left).punct sign).append (rightWoven.operand right)

/-- The pieces of a chain are woven if its operands are. -/
theorem woven_comparisons {left : Expr} {first : Stream} {ops : List String} {rights : List Expr}
    {streams pieces : List Stream} (emitted : Comparisons left first ops rights streams pieces)
    (leftWoven : Woven first)
    (all : List.Forall₂ (fun _ stream => Woven stream) rights streams) :
    ∀ piece ∈ pieces, Woven piece := by
  induction emitted with
  | nil => exact List.forall_mem_nil _
  | cons single _ inductionHypothesis =>
    obtain _ | ⟨rightWoven, restWoven⟩ := all
    exact List.forall_mem_cons.mpr
      ⟨woven_comparison single leftWoven rightWoven, inductionHypothesis rightWoven restWoven⟩

theorem woven_conjunction {pieces : List Stream} (all : ∀ piece ∈ pieces, Woven piece) :
    Woven (conjunction pieces) := by
  unfold conjunction
  split
  · exact all _ List.mem_cons_self
  · exact .separated "&&"
      (List.forall_mem_map.mpr fun piece member => (all piece member).parenthesized)

/-- The call of a known function is woven if its arguments are. -/
theorem woven_special {table : Table} {function : Expr} {arguments : List Expr}
    {streams : List Stream} {stream : Stream}
    (known : SpecialCall table function arguments streams stream)
    (all : ∀ argument ∈ streams, Woven argument) : Woven stream := by
  cases known with
  | print =>
    refine Woven.group (.bang .nil "println") "(" ")" ?_
    split
    · exact .nil
    · exact ((Woven.str .nil _).punct ",").append (.comma all)
  | len _ value stream =>
    exact ((all stream (by simp)).operand value).method "len" .nil
  | str _ value stream =>
    exact ((all stream (by simp)).operand value).method "to_string" .nil
  | rangeTo _ stop stream =>
    exact woven_range (.literal .nil "0") ((all stream (by simp)).operand stop)
  | rangeFrom _ start stop startStream stopStream =>
    exact woven_range ((all startStream (by simp)).operand start)
      ((all stopStream (by simp)).operand stop)
  | rangeBy _ start stop step startStream stopStream stepStream =>
    exact (woven_range ((all startStream (by simp)).operand start)
      ((all stopStream (by simp)).operand stop)).method "step_by"
        ((((all stepStream (by simp)).operand step).keyword "as").ident "usize")

/-- Woven streams follow the rules for expressions. -/
theorem wovenRules (context : Context) (table : Table) :
    ExprRules context table fun _ stream => Woven stream where
  constant := woven_constant
  name := woven_name
  binaryMethod left _ _ name _ _ _ leftWoven rightWoven :=
    (leftWoven.operand left).method name rightWoven
  binarySign left _ right sign _ _ _ _ leftWoven rightWoven :=
    ((leftWoven.operand left).punct sign).append (rightWoven.operand right)
  unary _ value _ _ known valueWoven := by
    refine Woven.append ?_ (valueWoven.operand value)
    unfold unarySign? at known
    split_ifs at known <;> cases known
    · exact .tied .nil "!"
    · exact .tied .nil "-"
    · exact .nil
  logical _ _ sign _ _ values := .separated sign (woven_operands values)
  compare _ _ _ _ _ _ _ emitted left rights :=
    woven_conjunction (woven_comparisons emitted left rights)
  special _ _ _ _ known arguments := woven_special known (forall_mem_of_forall₂ arguments)
  call function _ _ _ _ callee arguments :=
    (callee.operand function).joined_group "(" ")" (.comma (forall_mem_of_forall₂ arguments))
  field value attr _ woven := (woven.operand value).dotted.ident attr
  subscript value _ _ _ woven slice := (woven.operand value).joined_group "[" "]" slice
  list _ _ items := (Woven.bang .nil "vec").group "[" "]" (.comma (forall_mem_of_forall₂ items))
  tuple _ _ items := by
    have inner := Woven.comma (forall_mem_of_forall₂ items)
    refine Woven.parenthesized ?_
    split
    · exact inner.punct ","
    · exact inner
  await value _ _ woven := (woven.operand value).dotted.keyword "await"

/-- Every expression emits a woven stream. -/
theorem woven_expr {context : Context} {table : Table} {value : Expr} {stream : Stream}
    (lowered : expr context table value = .ok stream) : Woven stream :=
  (wovenRules context table).sound value stream lowered

/-! ### Signatures and targets -/

theorem woven_params {options : Options} {parameters : List Param} {stream : Stream}
    (lowered : params options parameters = .ok stream) : Woven stream := by
  obtain ⟨streams, rfl, all⟩ := typedParams_of_params lowered
  refine .comma (forall_mem_of_forall₂ (all.imp ?_))
  rintro parameter _ ⟨type, rfl⟩
  exact .emit type ((Woven.ident .nil _).joined ":")

theorem woven_result {options : Options} {returns : Expr} {stream : Stream}
    (lowered : result options returns = .ok stream) : Woven stream := by
  obtain rfl | ⟨type, rfl⟩ := nil_or_type_of_result lowered
  · exact .nil
  · exact .emit _ (.punct .nil "->")

theorem woven_newVariable (id : String) (type? : Option Ty) : Woven (newVariable id type?) := by
  have named := ((Woven.keyword .nil "let").keyword "mut").ident id
  cases type? with
  | none => exact named
  | some type => exact .emit type (named.joined ":")

theorem woven_boundPattern (names : List String) : Woven (boundPattern names) :=
  .comma (List.forall_mem_map.mpr fun id _ => .ident .nil id)

theorem woven_place {context : Context} {table : Table} {type? : Option Ty} {place : Expr}
    {stream : Stream} (placed : Place context table type? place stream) : Woven stream := by
  cases placed with
  | bound id _ => exact .ident .nil id
  | fresh id _ => exact woven_newVariable id type?
  | boundTuple names _ => exact (woven_boundPattern names).parenthesized
  | freshTuple names _ _ =>
    exact (Woven.keyword .nil "let").group "(" ")" (.comma
      (List.forall_mem_map.mpr fun id _ => (Woven.keyword .nil "mut").ident id))
  | field _ _ _ lowered => exact woven_expr lowered
  | subscript _ _ _ lowered => exact woven_expr lowered

theorem woven_loopPlace {place : Expr} {names : List String} {pattern : Stream}
    (placed : LoopPlace place names pattern) : Woven pattern := by
  cases placed with
  | single id => exact .ident .nil id
  | several names => exact (woven_boundPattern names).parenthesized

/-- A statement that stops is woven if its arguments are. -/
theorem woven_stopping (name : String) {arguments : Stream} (woven : Woven arguments) :
    Woven (stopping name arguments) :=
  (Woven.bang .nil name).group "(" ")" woven

/-! ### Simple statements -/

/-- Whether a statement is written on one line. -/
def isSimple : Stmt → Bool
  | .functionDef _ => false
  | .asyncFunctionDef _ => false
  | .ifElse .. => false
  | .whileLoop .. => false
  | .forLoop .. => false
  | _ => true

end Lower

/-! ### Neighbours -/

namespace Token

/-- Whether the token is an identifier, a keyword or a literal. -/
def isWord (token : Token) : Bool :=
  token.kind = .ident || token.kind = .keyword || token.kind = .literal

/-- Whether the token is the last one of its line. -/
def endsLine (token : Token) : Bool :=
  token.kind = .doc || token.isPunct openBrace || token.isPunct closeBrace || token.isPunct ";"

/-- Whether a token can stand before another one: of two words the first is not joint, and before a
documentation text a line ends. -/
structure Fits (first second : Token) : Prop where
  apart : first.isWord → second.isWord → first.joint = false
  leads : second.kind = .doc → first.endsLine

/-- A token that is joint only if it is punctuation can stand before everything that needs no new
line. -/
theorem Fits.of_loose {first second : Token} (loose : first.joint → first.kind = .punct)
    (leads : second.kind = .doc → first.endsLine) : first.Fits second where
  apart word _ := by
    refine Bool.eq_false_iff.mpr fun joint => ?_
    rw [isWord, loose joint] at word
    cases word
  leads := leads

end Token

/-- A stream all of whose neighbours fit, and which leaves no word joint at its end. -/
structure Fitting (stream : Stream) : Prop where
  chain : stream.IsChain Token.Fits
  loose : ∀ last ∈ stream.getLast?, last.joint → last.kind = .punct

/-- A stream that fits and ends with its last line. -/
structure Lined (stream : Stream) : Prop extends Fitting stream where
  ends : ∀ last ∈ stream.getLast?, last.endsLine

namespace Fitting

variable {stream first second : Stream}

theorem nil : Fitting [] where
  chain := List.isChain_nil
  loose := nofun

theorem single {token : Token} (loose : token.joint → token.kind = .punct) : Fitting [token] where
  chain := List.isChain_singleton token
  loose := by
    rintro _ ⟨⟩
    exact loose

/-- Two streams one after the other, where a documentation text in front of the second one needs a
line that ends before it. -/
theorem append (firstFits : Fitting first) (secondFits : Fitting second)
    (leads : ∀ next ∈ second.head?, next.kind = .doc → ∀ last ∈ first.getLast?, last.endsLine) :
    Fitting (first ++ second) where
  chain := by
    refine List.isChain_append.mpr ⟨firstFits.chain, secondFits.chain, ?_⟩
    intro last lastMember next nextMember
    exact .of_loose (firstFits.loose last lastMember) fun isDoc =>
      leads next nextMember isDoc last lastMember
  loose last member := by
    rw [List.getLast?_append, Option.mem_def, Option.or_eq_some_iff] at member
    rcases member with member | ⟨_, member⟩
    · exact secondFits.loose last member
    · exact firstFits.loose last member

/-- Joining the last token does not change which neighbours fit. -/
theorem isChain_join (chain : stream.IsChain Token.Fits) :
    (Stream.join stream).IsChain Token.Fits := by
  fun_induction Stream.join stream with
  | case1 => exact List.isChain_nil
  | case2 last => exact List.isChain_singleton _
  | case3 token next rest inductionHypothesis =>
    obtain ⟨fits, restChain⟩ := List.isChain_cons_cons.mp chain
    have later := inductionHypothesis restChain
    -- The token behind the first one keeps its kind, even if it is the one that is marked.
    obtain _ | ⟨other, others⟩ := rest
    · exact List.isChain_cons_cons.mpr ⟨⟨fits.apart, fits.leads⟩, later⟩
    · exact List.isChain_cons_cons.mpr ⟨fits, later⟩

end Fitting

/-- There is no documentation in a woven stream. -/
theorem Woven.kind_ne_doc {stream : Stream} (woven : Woven stream) :
    ∀ token ∈ stream, token.kind ≠ .doc := by
  induction woven with
  | nil => exact List.forall_mem_nil _
  | single spoken _ => exact List.forall_mem_singleton.mpr spoken
  | append _ _ firstSpoken secondSpoken =>
    exact List.forall_mem_append.mpr ⟨firstSpoken, secondSpoken⟩
  | @closed stream token sign _ spoken =>
    refine List.forall_mem_append.mpr ⟨fun other member => ?_, ?_⟩
    · have bareMember : other.bare ∈ stream.bare := by
        rw [← Stream.bare_join]
        exact List.mem_map_of_mem member
      obtain ⟨same, sameMember, equal⟩ := List.mem_map.mp bareMember
      have kinds : same.bare.kind = other.bare.kind := congrArg Token.kind equal
      exact kinds ▸ spoken same sameMember
    · rw [List.forall_mem_singleton, sign]
      decide

/-- The neighbours in a woven stream fit. -/
theorem Woven.fitting {stream : Stream} (woven : Woven stream) : Fitting stream := by
  induction woven with
  | nil => exact .nil
  | single _ loose => exact .single loose
  | append _ secondWoven firstFits secondFits =>
    refine firstFits.append secondFits fun next member isDoc => ?_
    exact absurd isDoc (secondWoven.kind_ne_doc next (List.mem_of_mem_head? member))
  | @closed stream token sign _ fits =>
    refine ⟨List.isChain_append.mpr
      ⟨Fitting.isChain_join fits.chain, List.isChain_singleton _, ?_⟩, ?_⟩
    · rintro last _ _ ⟨⟩
      exact ⟨fun _ word => by simp [Token.isWord, sign] at word,
        fun isDoc => by simp [sign] at isDoc⟩
    · intro last member
      rw [List.getLast?_concat] at member
      cases member
      exact fun _ => sign

/-- A woven stream stands behind everything. -/
theorem Fitting.append_woven {first second : Stream} (firstFits : Fitting first)
    (woven : Woven second) : Fitting (first ++ second) :=
  firstFits.append woven.fitting fun next member isDoc =>
    absurd isDoc (woven.kind_ne_doc next (List.mem_of_mem_head? member))

namespace Lined

variable {first second stream : Stream}

theorem nil : Lined [] where
  toFitting := .nil
  ends := nofun

/-- Everything can stand behind a line. -/
theorem append_fitting (firstLined : Lined first) (secondFits : Fitting second) :
    Fitting (first ++ second) :=
  firstLined.toFitting.append secondFits fun _ _ _ => firstLined.ends

theorem append (firstLined : Lined first) (secondLined : Lined second) :
    Lined (first ++ second) where
  toFitting := firstLined.append_fitting secondLined.toFitting
  ends last member := by
    rw [List.getLast?_append, Option.mem_def, Option.or_eq_some_iff] at member
    rcases member with member | ⟨_, member⟩
    · exact secondLined.ends last member
    · exact firstLined.ends last member

theorem flatten {streams : List Stream} (all : ∀ stream ∈ streams, Lined stream) :
    Lined streams.flatten := by
  induction streams with
  | nil => exact .nil
  | cons first rest inductionHypothesis =>
    rw [List.forall_mem_cons] at all
    exact all.1.append (inductionHypothesis all.2)

/-- A brace or a semicolon ends the line. -/
theorem punct (fits : Fitting stream) {text : String}
    (ends : text ∈ [openBrace, closeBrace, ";"]) : Lined (stream.punct text) where
  toFitting := fits.append_woven (Woven.sign text false)
  ends last member := by
    rw [Stream.punct, List.getLast?_concat] at member
    cases member
    simp only [List.mem_cons, List.not_mem_nil, or_false] at ends
    rcases ends with rfl | rfl | rfl <;> rfl

/-- A head with a block of lines behind it is made of lines. -/
theorem braced {head body : Stream} (headFits : Fitting head) (bodyLined : Lined body) :
    Lined (braced head body) := by
  rw [Lower.braced, Stream.group, if_pos rfl]
  exact punct ((punct headFits (by decide)).append bodyLined).toFitting (by decide)

end Lined

/-! ### Statements and functions -/

namespace Lower

variable {options : Options} {context : Context} {table : Table}

/-- The declarations in front of a body are lines. -/
theorem lined_front (table : Table) (definition : FunctionDef) :
    Lined (frontTokens options table definition) :=
  front_induction .nil
    (fun name type? => .punct (woven_newVariable name type?).fitting (by decide)) .append options _

/-- A visibility adds woven tokens, whatever stands before it. -/
theorem exists_visibility_eq (visibility : Visibility) :
    ∃ added, Woven added ∧ ∀ stream, visibility.emit stream = stream ++ added := by
  cases visibility with
  | hidden => exact ⟨[], .nil, fun stream => (List.append_nil stream).symm⟩
  | unknown => exact ⟨[], .nil, fun stream => (List.append_nil stream).symm⟩
  | everywhere => exact ⟨_, .keyword .nil "pub", fun _ => rfl⟩
  | internal =>
    refine ⟨_, (Woven.keyword .nil "pub").joined_group "(" ")" (.keyword .nil "crate"), ?_⟩
    intro stream
    rw [Visibility.emit, Stream.keyword, Stream.join_concat, Stream.group_append]
    rfl

/-- A qualifier adds woven tokens, whatever stands before it. -/
theorem exists_qualifier_eq (qualifier : Qualifier) :
    ∃ added, Woven added ∧ ∀ stream, qualifier.emit stream = stream ++ added := by
  cases qualifier with
  | sync => exact ⟨[], .nil, fun stream => (List.append_nil stream).symm⟩
  | async => exact ⟨_, .keyword .nil "async", fun _ => rfl⟩

/-- The documentation text that is written for a function. -/
def writtenDoc (options : Options) (definition : FunctionDef) : String :=
  if options.noDocstrings then "" else definition.docstring?.getD ""

/-- Only the documentation text of a head, in front of it, is not woven, and nothing else in it
depends on the settings. -/
theorem exists_head_eq (context : Context) (definition : FunctionDef) {clause output : Stream}
    (clauseWoven : Woven clause) (outputWoven : Woven output) :
    ∃ opened, Woven opened ∧ ∀ options, head context options definition clause output =
      Stream.doc [] (writtenDoc options definition) ++ opened := by
  obtain ⟨visible, visibleWoven, emitted⟩ :=
    exists_visibility_eq (Visibility.ofName definition.name)
  obtain ⟨qualified, qualifiedWoven, equal⟩ := exists_qualifier_eq (Qualifier.ofContext context)
  have named := ((visibleWoven.append qualifiedWoven).keyword "fn").ident definition.name
  have spelled (doc : Stream) : Stream.join (((doc ++ visible ++ qualified).keyword "fn").ident
      definition.name) =
        doc ++ Stream.join (((visible ++ qualified).keyword "fn").ident definition.name) := by
    rw [← Stream.join_append (by simp [Stream.ident])]
    simp only [Stream.keyword, Stream.ident, List.append_assoc]
  refine ⟨_, (named.joined_group "(" ")" clauseWoven).append outputWoven, fun options => ?_⟩
  calc head context options definition clause output
      = (Stream.join ((((Qualifier.ofContext context).emit ((Visibility.ofName
          definition.name).emit (Stream.doc [] (writtenDoc options definition)))).keyword
            "fn").ident definition.name)).group "(" ")" (Stream.join clause) ++ output := rfl
    _ = _ := by rw [emitted, equal, spelled, Stream.group_append, List.append_assoc]

/-- The head of a function fits together. -/
theorem fitting_head {definition : FunctionDef} {clause output : Stream}
    (clauseWoven : Woven clause) (outputWoven : Woven output) :
    Fitting (head context options definition clause output) := by
  obtain ⟨opened, woven, equal⟩ := exists_head_eq context definition clauseWoven outputWoven
  have doc : Fitting (Stream.doc [] (writtenDoc options definition)) := .single nofun
  rw [equal]
  exact doc.append_woven woven

/-- A condition starts with its keyword. -/
theorem exists_ifElse_eq {test : Expr} {body orelse : List Stmt} {stream : Stream}
    (emitted : Emits options (.stmt (.ifElse test body orelse)) context table stream) :
    ∃ rest, stream = { kind := .keyword, text := "if" } :: rest := by
  cases emitted with
  | ifOnly => exact ⟨_, rfl⟩
  | ifFurther => exact ⟨_, rfl⟩
  | ifElse => exact ⟨_, rfl⟩

/-- How a piece stands in the text: a statement still needs its semicolon, and a simple one is
woven. -/
def Piece.Laid : Piece → Stream → Prop
  | .stmt value, stream => Fitting stream ∧ (isSimple value → Woven stream)
  | .block _, stream => Lined stream
  | .function _, stream => Lined stream

theorem laid_of_woven {value : Stmt} {stream : Stream} (woven : Woven stream) :
    (Piece.stmt value).Laid stream :=
  ⟨woven.fitting, fun _ => woven⟩

/-- A compound statement only needs to fit together. -/
theorem laid_of_fitting {value : Stmt} {stream : Stream} (compound : isSimple value = false)
    (fits : Fitting stream) : (Piece.stmt value).Laid stream :=
  ⟨fits, fun simple => absurd simple (Bool.eq_false_iff.mp compound)⟩

/-- Everything that is emitted is laid, by induction over the rules. -/
theorem laid_emits {piece : Piece} {stream : Stream}
    (emitted : Emits options piece context table stream) : piece.Laid stream := by
  induction emitted with
  | functionDef _ _ lined => exact laid_of_fitting rfl lined.toFitting
  | asyncFunctionDef _ _ lined => exact laid_of_fitting rfl lined.toFitting
  | expr lowered => exact laid_of_woven (woven_expr lowered)
  | assign placed lowered =>
    exact laid_of_woven (((woven_place placed).punct "=").append (woven_expr lowered))
  | augSign _ placed lowered =>
    exact laid_of_woven (((woven_expr placed).punct _).append (woven_expr lowered))
  | augMethod _ _ placed lowered =>
    exact laid_of_woven (((woven_expr placed).punct "=").append (woven_expr lowered))
  | declare => exact laid_of_woven (woven_newVariable _ _)
  | silent => exact laid_of_woven .nil
  | annAssign _ _ placed lowered =>
    exact laid_of_woven (((woven_place placed).punct "=").append (woven_expr lowered))
  | returnNothing => exact laid_of_woven (.keyword .nil "return")
  | returnValue lowered =>
    exact laid_of_woven ((Woven.keyword .nil "return").append (woven_expr lowered))
  | ifOnly tested _ inner =>
    have opened := (Woven.keyword .nil "if").append (woven_expr tested)
    exact laid_of_fitting rfl (Lined.braced opened.fitting inner).toFitting
  | ifFurther tested _ furtherEmitted inner further =>
    have opened := (Woven.keyword .nil "if").append (woven_expr tested)
    have first := (Lined.braced opened.fitting inner).toFitting.append_woven (.keyword .nil "else")
    refine laid_of_fitting rfl (first.append further.1 ?_)
    obtain ⟨rest, rfl⟩ := exists_ifElse_eq furtherEmitted
    rintro _ ⟨⟩ ⟨⟩
  | ifElse _ _ tested _ _ inner other =>
    have opened := (Woven.keyword .nil "if").append (woven_expr tested)
    have first := (Lined.braced opened.fitting inner).toFitting.append_woven (.keyword .nil "else")
    exact laid_of_fitting rfl (Lined.braced first other).toFitting
  | forever _ _ inner =>
    exact laid_of_fitting rfl (Lined.braced (Woven.keyword .nil "loop").fitting inner).toFitting
  | whileLoop tested _ inner =>
    have opened := (Woven.keyword .nil "while").append (woven_expr tested)
    exact laid_of_fitting rfl (Lined.braced opened.fitting inner).toFitting
  | forLoop placed lowered _ inner =>
    have opened := ((Woven.keyword .nil "for").append (woven_loopPlace placed)).keyword "in"
    exact laid_of_fitting rfl
      (Lined.braced (opened.append (woven_expr lowered)).fitting inner).toFitting
  | pass => exact laid_of_woven .nil
  | breakLoop => exact laid_of_woven (.keyword .nil "break")
  | continueLoop => exact laid_of_woven (.keyword .nil "continue")
  | raiseNothing => exact laid_of_woven (woven_stopping "panic" .nil)
  | raiseName => exact laid_of_woven (woven_stopping "panic" (.str .nil _))
  | raiseMessage lowered =>
    exact laid_of_woven (woven_stopping "panic"
      (((Woven.str .nil _).punct ",").append (woven_expr lowered)))
  | raiseValue lowered =>
    exact laid_of_woven (woven_stopping "panic"
      (((Woven.str .nil _).punct ",").append (woven_expr lowered)))
  | assertOnly tested => exact laid_of_woven (woven_stopping "assert" (woven_expr tested))
  | assertMessage tested lowered =>
    exact laid_of_woven (woven_stopping "assert"
      (((((woven_expr tested).punct ",").str _).punct ",").append (woven_expr lowered)))
  | blockNil => exact Lined.nil
  | blockCons _ _ first rest => exact (Lined.punct first.1 (by decide)).append rest
  | @function definition _ table _ _ _ _ clauseLowered outputLowered _ inner =>
    exact Lined.braced (fitting_head (woven_params clauseLowered) (woven_result outputLowered))
      ((lined_front table definition).append inner)

theorem woven_runtimeLine : Woven (runtimeLine options) := by
  unfold runtimeLine
  split
  · have used := ((Woven.path .nil [options.runtime]).joined_tied "::").tied "*"
    exact (Woven.keyword .nil "use").append (used.punct ";")
  · exact .nil

theorem lined_runtimeLine : Lined (runtimeLine options) where
  toFitting := woven_runtimeLine.fitting
  ends := by
    unfold runtimeLine
    split
    · rintro _ ⟨⟩
      rfl
    · nofun

/-- Every stream that is written fits. -/
theorem lined_module {source : Module} {stream : Stream}
    (lowered : (module options table source).2 = .ok stream) : Lined stream := by
  obtain ⟨streams, itemsLowered, rfl⟩ := module_of_ok lowered
  refine lined_runtimeLine.append (.flatten fun item member => ?_)
  obtain ⟨_, _, itemLowered⟩ := exists_item_of_mem itemsLowered member
  exact laid_emits (emits_of_function _ _ _ _ itemLowered)

end Lower

end Oxide
