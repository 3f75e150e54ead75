/-
This file proves that a block can be taken apart again. A stream is cut at its semicolons, but only
at those outside all braces, since the blocks inside a statement have semicolons of their own. No
statement has a semicolon outside its braces, so the segments between the cuts are the streams of
the statements in their order, each of them lowered with the names that the statements before it
have bound.
-/

import Oxide.Proofs.BraceBalance
import Oxide.Proofs.Waiting

namespace Oxide

/-! ### Cutting a stream -/

namespace Stream

/-- Whether a stream has a semicolon outside all of its braces. -/
def HasOuterSemicolon (stream : Stream) : Prop :=
  ∃ (before : Stream) (token : Token) (behind : Stream), stream = before ++ token :: behind ∧
    before.balance = 0 ∧ token.isPunct ";"

/-- Cuts a stream at the semicolons outside all braces, with this many braces open before it and
the tokens of the segment that has begun. Second come the tokens behind the last cut. -/
def segmentsFrom (depth : Int) (begun : Stream) : Stream → List Stream × Stream
  | [] => ([], begun)
  | token :: rest =>
    if depth = 0 ∧ token.isPunct ";" then
      let (later, left) := segmentsFrom 0 [] rest
      (begun :: later, left)
    else segmentsFrom (depth + token.braceChange) (begun ++ [token]) rest

/-- The segments of a stream before its semicolons outside all braces, and the tokens behind the
last of these semicolons. -/
def segments (stream : Stream) : List Stream × Stream :=
  segmentsFrom 0 [] stream

/-- Nothing is cut where no semicolon stands outside all braces. -/
theorem segmentsFrom_append {depth : Int} {part : Stream}
    (uncut : ∀ (before : Stream) token behind, part = before ++ token :: behind →
      depth + before.balance = 0 → ¬ token.isPunct ";") (begun rest : Stream) :
    segmentsFrom depth begun (part ++ rest) =
      segmentsFrom (depth + part.balance) (begun ++ part) rest := by
  induction part generalizing depth begun with
  | nil => rw [List.nil_append, balance_nil, Int.add_zero, List.append_nil]
  | cons token later inductionHypothesis =>
    have noCut : ¬ (depth = 0 ∧ token.isPunct ";") := by
      rintro ⟨outside, isSemicolon⟩
      refine uncut [] token later rfl ?_ isSemicolon
      rw [outside, balance_nil, Int.add_zero]
    have laterUncut : ∀ (before : Stream) next behind, later = before ++ next :: behind →
        depth + token.braceChange + before.balance = 0 → ¬ next.isPunct ";" := by
      rintro before next behind rfl outside
      refine uncut (token :: before) next behind rfl ?_
      rwa [balance_cons, ← Int.add_assoc]
    rw [List.cons_append, segmentsFrom, if_neg noCut, inductionHypothesis laterUncut, balance_cons,
      Int.add_assoc, List.append_assoc, List.singleton_append]

end Stream

/-! ### Sealed streams -/

/-- A stream that closes the braces that it opens and has no semicolon outside of them. -/
structure Sealed (stream : Stream) : Prop where
  balanced : stream.balance = 0
  closed : ¬ stream.HasOuterSemicolon

/-- The braces of a neutral stream are balanced. -/
theorem Neutral.covered_and_balanced {stream : Stream} (neutral : Neutral stream) :
    stream.Covered 0 ∧ stream.balance = 0 := by
  obtain ⟨text, laidOut⟩ := Layout.layout_of_matched neutral.matched
  have sameFault := Layout.faultOf?_layoutFrom 0 0 true default stream
  rw [show Layout.layoutFrom 0 0 true default stream = .ok text from laidOut] at sameFault
  exact Layout.fault?_eq_none_iff.mp sameFault.symm

namespace Sealed

variable {first second stream inner : Stream}

theorem append (firstSealed : Sealed first) (secondSealed : Sealed second) :
    Sealed (first ++ second) where
  balanced := by
    rw [Stream.balance_append, firstSealed.balanced, secondSealed.balanced, Int.add_zero]
  closed := by
    rintro ⟨before, token, behind, split, outside, isSemicolon⟩
    rcases List.append_eq_append_iff.mp split with ⟨middle, rfl, rfl⟩ | ⟨middle, rfl, equal⟩
    · refine secondSealed.closed ⟨middle, token, behind, rfl, ?_, isSemicolon⟩
      rwa [Stream.balance_append, firstSealed.balanced, Int.zero_add] at outside
    · cases middle with
      | nil => exact secondSealed.closed ⟨[], token, behind, equal.symm, rfl, isSemicolon⟩
      | cons next rest =>
        cases equal
        exact firstSealed.closed ⟨before, token, rest, rfl, outside, isSemicolon⟩

/-- A stream within a statement is sealed. -/
theorem of_not_divides (within : ∀ token ∈ stream.bare, ¬ token.divides) : Sealed stream := by
  have undivided : ∀ token ∈ stream, ¬ token.divides := fun token member =>
    within token.bare (List.mem_map_of_mem member)
  simp only [Token.divides, Bool.or_eq_true, not_or] at undivided
  refine ⟨?_, ?_⟩
  · have noOpening := List.countP_eq_zero.mpr fun token member => (undivided token member).1.1
    have noClosing := List.countP_eq_zero.mpr fun token member => (undivided token member).1.2
    rw [Stream.balance, noOpening, noClosing]
    rfl
  · rintro ⟨before, token, behind, rfl, _, isSemicolon⟩
    exact (undivided token (by simp)).2 isSemicolon

/-- What stands in braces is no longer outside of them. -/
theorem braced (neutral : Neutral inner.bare) :
    Sealed (.punct openBrace :: (inner ++ [.punct closeBrace])) := by
  obtain ⟨covered, balanced⟩ := (neutral_bare_iff.mp neutral).covered_and_balanced
  refine ⟨?_, ?_⟩
  · rw [Stream.balance_cons, Stream.balance_concat, balanced]
    rfl
  · rintro ⟨before, token, behind, split, outside, isSemicolon⟩
    cases before with
    | nil =>
      cases split
      cases isSemicolon
    | cons opening later =>
      rw [List.cons_append, List.cons.injEq] at split
      obtain ⟨rfl, rest⟩ := split
      have shorter : later.length ≤ inner.length := by
        have lengths := congrArg List.length rest
        simp only [List.length_append, List.length_cons, List.length_nil] at lengths
        omega
      have inside : later <+: inner :=
        List.prefix_of_prefix_length_le ⟨token :: behind, rest.symm⟩
          (List.prefix_append inner _) shorter
      have deep := covered later inside
      rw [Stream.balance_cons, Token.braceChange_of_opening rfl] at outside
      omega

end Sealed

namespace Stream

/-- A row of sealed streams, each with a semicolon behind it, is cut into just these streams. -/
theorem segments_flatMap {parts : List Stream} (all : ∀ part ∈ parts, Sealed part) :
    segments (parts.flatMap fun part => part.punct ";") = (parts, []) := by
  unfold segments
  induction parts with
  | nil => rfl
  | cons part rest inductionHypothesis =>
    obtain ⟨partSealed, restSealed⟩ := List.forall_mem_cons.mp all
    have uncut : ∀ (before : Stream) token behind, part = before ++ token :: behind →
        0 + before.balance = 0 → ¬ token.isPunct ";" := by
      intro before token behind split outside isSemicolon
      rw [Int.zero_add] at outside
      exact partSealed.closed ⟨before, token, behind, split, outside, isSemicolon⟩
    rw [List.flatMap_cons, punct, List.append_assoc, segmentsFrom_append uncut, partSealed.balanced,
      List.nil_append, List.singleton_append, segmentsFrom, if_pos ⟨rfl, rfl⟩,
      inductionHypothesis restSealed]

end Stream

/-! ### Statements and blocks -/

namespace Lower

variable {options : Options} {context : Context} {table : Table}

theorem sealed_expr {value : Expr} {stream : Stream}
    (lowered : expr context table value = .ok stream) : Sealed stream :=
  .of_not_divides (phrase_expr lowered).calm.not_divides

theorem sealed_keyword (word : String) : Sealed (Stream.keyword [] word) :=
  .of_not_divides (List.forall_mem_singleton.mpr Bool.false_ne_true)

theorem sealed_braced {opened inner : Stream} (openedSealed : Sealed opened)
    (neutral : Neutral inner.bare) : Sealed (braced opened inner) := by
  rw [braced, Stream.group, if_pos rfl, Stream.punct, Stream.punct, List.append_assoc,
    List.append_assoc]
  exact openedSealed.append (.braced neutral)

/-- Whether a piece is a block, which has the semicolons of its statements. -/
def Piece.isBlock : Piece → Bool
  | .block _ => true
  | _ => false

/-- Whatever is emitted is sealed, unless it is a block. -/
theorem sealed_emits {piece : Piece} {stream : Stream}
    (emitted : Emits options piece context table stream) (single : piece.isBlock = false) :
    Sealed stream := by
  have whole := emitted
  induction emitted with
  | functionDef _ inner isSealed => exact isSealed rfl inner
  | asyncFunctionDef _ inner isSealed => exact isSealed rfl inner
  | ifOnly tested inner =>
    exact sealed_braced ((sealed_keyword "if").append (sealed_expr tested)) (neutral_emits inner)
  | ifFurther tested inner other _ further =>
    have first := sealed_braced ((sealed_keyword "if").append (sealed_expr tested))
      (neutral_emits inner)
    exact (first.append (sealed_keyword "else")).append (further rfl other)
  | ifElse _ _ tested inner other =>
    have first := sealed_braced ((sealed_keyword "if").append (sealed_expr tested))
      (neutral_emits inner)
    exact sealed_braced (first.append (sealed_keyword "else")) (neutral_emits other)
  | forever _ inner => exact sealed_braced (sealed_keyword "loop") (neutral_emits inner)
  | whileLoop tested inner =>
    exact sealed_braced ((sealed_keyword "while").append (sealed_expr tested))
      (neutral_emits inner)
  | forLoop placed lowered inner =>
    have pattern := Sealed.of_not_divides (@inline_loopPlace false _ _ _ placed).within
    exact sealed_braced ((((sealed_keyword "for").append pattern).append
      (sealed_keyword "in")).append (sealed_expr lowered)) (neutral_emits inner)
  | blockNil => cases single
  | blockCons => cases single
  | @function definition context table _ _ _ _ clauseLowered outputLowered inner =>
    refine sealed_braced (.of_not_divides (calm_head clauseLowered outputLowered).not_divides) ?_
    rw [Stream.bare_append]
    exact (neutral_front table definition).append (neutral_emits inner)
  | _ => exact .of_not_divides (inline_of_isSimple rfl whole).within

/-- A block is the row of its statements, each lowered in the table that those before it leave. -/
theorem exists_statements_of_block {number : Nat} {body : List Stmt} {stream : Stream}
    (lowered : block options number body context table = .ok stream) :
    ∃ streams : List Stream, stream = streams.flatMap (fun single => single.punct ";") ∧
      streams.length = body.length ∧
      ∀ place : Nat, streams[place]?.map Except.ok = body[place]?.map fun value =>
        stmt options value context ((body.take place).foldl bindStmt table) := by
  induction body generalizing number table stream with
  | nil =>
    rw [block] at lowered
    cases lowered
    exact ⟨[], rfl, rfl, fun _ => rfl⟩
  | cons first rest inductionHypothesis =>
    simp only [block, Attempt.bind_eq_ok, Attempt.inside_eq_ok, Attempt.pure_eq_ok] at lowered
    obtain ⟨single, firstLowered, later, restLowered, rfl⟩ := lowered
    obtain ⟨streams, rfl, sameLength, each⟩ := inductionHypothesis restLowered
    refine ⟨single :: streams, rfl, congrArg (· + 1) sameLength, fun place => ?_⟩
    cases place with
    | zero => exact congrArg some firstLowered.symm
    | succ earlier => exact each earlier

/-- A block is cut into one segment for each of its statements, in their order, and nothing is left
behind the last one. Each segment is what the statement is lowered to with the names bound that the
statements before it bind. No statement has a semicolon outside its braces. -/
theorem block_segments (options : Options) :
    (∀ number body context table stream, block options number body context table = .ok stream →
      stream.segments.2 = [] ∧ stream.segments.1.length = body.length ∧
      ∀ place : Nat, stream.segments.1[place]?.map Except.ok = body[place]?.map fun value =>
        stmt options value context ((body.take place).foldl bindStmt table)) ∧
    ∀ value context table stream, stmt options value context table = .ok stream →
      ¬ stream.HasOuterSemicolon := by
  have isSealed {value : Stmt} {context : Context} {table : Table} {stream : Stream}
      (lowered : stmt options value context table = .ok stream) : Sealed stream :=
    sealed_emits (emits_of_stmt value context table stream lowered) rfl
  refine ⟨fun number body context table stream lowered => ?_,
    fun value context table stream lowered => (isSealed lowered).closed⟩
  obtain ⟨streams, rfl, sameLength, each⟩ := exists_statements_of_block lowered
  have allSealed : ∀ single ∈ streams, Sealed single := by
    intro single member
    obtain ⟨place, found⟩ := List.mem_iff_getElem?.mp member
    have own := each place
    rw [found, Option.map_some, eq_comm, Option.map_eq_some_iff] at own
    obtain ⟨value, _, lowered⟩ := own
    exact isSealed lowered
  rw [Stream.segments_flatMap allSealed]
  exact ⟨rfl, sameLength, each⟩

/-- A block with a loop in it, which has a semicolon inside its braces. -/
theorem block_segments_with_loop :
    let loop : Stmt := .whileLoop (.name "x") [.augAssign (.name "x") "Sub" (.name "y")] []
    let body : List Stmt := [.assign [.name "x"] (.constant (.int "3")), loop, .ret (.name "x")]
    ∃ stream inner, block {} 0 body .module Table.new = .ok stream ∧
      stmt {} loop .module Table.new = .ok inner ∧
      stream.segments.2 = [] ∧ stream.segments.1.length = 3 ∧
      (∀ place : Nat, stream.segments.1[place]?.map Except.ok = body[place]?.map fun value =>
        stmt {} value .module ((body.take place).foldl bindStmt Table.new)) ∧
      Token.punct ";" ∈ inner ∧ ¬ inner.HasOuterSemicolon := by
  intro loop body
  obtain ⟨stream, lowered⟩ : ∃ stream, block {} 0 body .module Table.new = .ok stream := ⟨_, rfl⟩
  obtain ⟨inner, innerLowered, semicolon⟩ : ∃ inner, stmt {} loop .module Table.new = .ok inner ∧
      Token.punct ";" ∈ inner := ⟨_, rfl, by decide⟩
  obtain ⟨nothingLeft, three, each⟩ := (block_segments {}).1 0 body .module Table.new stream lowered
  exact ⟨stream, inner, lowered, innerLowered, nothingLeft, three, each, semicolon,
    (block_segments {}).2 loop .module Table.new inner innerLowered⟩

end Lower

end Oxide
