/-
This file is about tests of membership. They call a method of the collection with a reference to
the item, whose sign stands right in front of the stream of the item. A sign in front binds more
tightly than any sign between operands, so the reference is one to the whole item if and only if
the item is not written with a sign between operands. The collection is put into parentheses where
it needs them, and so it is always the whole of it that is called.
-/

import Oxide.Proofs.OperatorStructure

namespace Oxide

namespace Grammar

/-! ### A sign in front of a stream -/

theorem isReference : "&" ∈ frontSigns := by decide

theorem isNegation : "!" ∈ frontSigns := by decide

/-- With a sign in front of it, an expression is still one, if maybe of another shape. -/
theorem Reads.exists_behind {sign : String} (known : sign ∈ frontSigns) :
    {level : Nat} → {stream : Stream} → {term : Term} → Reads level stream term → level ≤ 11 →
      ∃ result, Reads level (.punct sign :: stream) result
  | level, _, _, .weaken read, low => by
    rcases Nat.lt_or_eq_of_le low with below | rfl
    · obtain ⟨result, resultRead⟩ := read.exists_behind known below
      exact ⟨result, resultRead.weaken⟩
    · exact ⟨_, .unary known read.weaken⟩
  | level, _, _, .binary signKnown leftRead rightRead, _ => by
    have leftLow : leftLevel level ≤ 11 := by
      have := infixLevel?_le signKnown
      unfold leftLevel
      split <;> omega
    obtain ⟨result, resultRead⟩ := leftRead.exists_behind known leftLow
    exact ⟨_, .binary signKnown resultRead rightRead⟩
  | _, _, _, .cast type read, low => by
    obtain ⟨result, resultRead⟩ := read.exists_behind known (by decide)
    exact ⟨_, .cast type resultRead⟩
  | _, _, _, .unary otherKnown read, _ => ⟨_, .unary known (.unary otherKnown read)⟩

/-- What a sign in front is applied to as a whole is an operand of such signs. -/
theorem Reads.of_unary {sign : String} {rest : Stream} {operand : Term}
    (known : sign ∈ frontSigns) : {level : Nat} → {stream : Stream} → {term : Term} →
    Reads level stream term → stream = .punct sign :: rest → term = .unary sign operand →
      Reads 11 rest operand
  | _, _, _, .weaken read, spelled, shaped => read.of_unary known spelled shaped
  | _, _, _, .unary _ read, spelled, shaped => by
    cases spelled
    cases shaped
    exact read
  | _, _, _, .group _, spelled, _ => by
    cases spelled
    exact absurd known (by decide)

theorem Reads.iff_eq {stream : Stream} {term : Term} (read : Reads 0 stream term) (other : Term) :
    Reads 0 stream other ↔ other = term := by
  constructor
  · intro otherRead
    exact otherRead.unique read
  · rintro rfl
    exact read

/-- Whether a stream starts with an operand and a sign between operands. -/
def Joined (stream : Stream) : Prop :=
  ∃ first left sign level rest, Reads 12 first left ∧ infixLevel? sign = some level ∧
    stream = first ++ .punct sign :: rest

/-- The reader stops in front of the sign, since it looks for what binds more tightly. -/
theorem Joined.not_reads {stream : Stream} {term : Term} (joined : Joined stream) :
    ¬ Reads 11 stream term := by
  intro read
  obtain ⟨first, left, sign, level, rest, firstRead, known, rfl⟩ := joined
  have low := infixLevel?_le known
  have ends {least : Nat} (above : 9 < least) : Ends least (.punct sign :: rest) :=
    ends_cons (Join.of?_sign known) (Nat.lt_of_le_of_lt low above)
  have stopped : FindsExpr 11 (first ++ .punct sign :: rest) left (.punct sign :: rest) :=
    firstRead.found (by decide) (by decide) (ends (by decide))
      (findsMore_of_ends (ends (by decide)))
  have whole : FindsExpr 11 ((first ++ .punct sign :: rest) ++ []) term [] :=
    read.found (Nat.le_refl 11) (by decide) (ends_nil 12) (findsMore_of_ends (ends_nil 11))
  rw [List.append_nil] at whole
  obtain ⟨fuel, settled⟩ := stopped.both whole
  obtain ⟨stoppedFound, wholeFound⟩ := settled fuel (Nat.le_refl fuel)
  rw [stoppedFound] at wholeFound
  cases wholeFound

end Grammar

namespace Lower

open Grammar

/-! ### Expressions behind a sign -/

/-- Whether a node can be spelled: no logical operator without operands, and no number with a sign
of its own. -/
def isSpelled : Expr → Bool
  | .boolOp _ values => !values.isEmpty
  | .constant (.int text) => isUnsigned text
  | .constant (.float text) => isUnsigned text
  | _ => true

/-- Whether a comparison is written with a sign, and not as a method. -/
def isSignedComparison (op : String) (right : Expr) : Bool :=
  op ≠ "In" && op ≠ "NotIn" && !((op = "Is" || op = "IsNot") && right.isNone)

/-- Whether an expression is written with a sign between operands. A chain of comparisons always
is. -/
def isInfix : Expr → Bool
  | .binOp _ op _ => (binaryMethod? op).isNone
  | .boolOp _ values => 2 ≤ values.length
  | .compare _ [op] [right] => isSignedComparison op right
  | .compare .. => true
  | _ => false

/-- How a stream is read behind a sign in front: up to the first sign between operands if there is
one, and otherwise as a whole. -/
def Behind : Bool → Stream → Term → Prop
  | true, stream, _ => Joined stream.bare
  | false, stream, term => Reads 11 stream.bare term

/-- How the stream of an expression is read alone and behind a sign. -/
structure Fits (value : Expr) (stream : Stream) (term : Term) : Prop where
  readable : Readable value stream term
  behind : Behind (isInfix value) stream term

namespace Fits

variable {value : Expr} {stream : Stream} {term : Term}

theorem of_simple (simple : isCompound value = false) (readable : Readable value stream term) :
    Fits value stream term := by
  have notInfix : isInfix value = false := by
    cases value <;> first | rfl | cases simple
  have read := readable.operand.weaken
  rw [operand, simple] at read
  exact ⟨readable, notInfix ▸ read⟩

/-- An expression that is built with an operator is read as it is without parentheses. -/
theorem of_compound (compound : isCompound value) (read : Reads 0 stream.bare term)
    (behind : Behind (isInfix value) stream term) : Fits value stream term where
  readable := by cases value <;> first | exact read | cases compound
  behind := behind

theorem of_tight (compound : isCompound value) (notInfix : isInfix value = false)
    (read : Reads 11 stream.bare term) : Fits value stream term :=
  of_compound compound (read.weaken_of_le (Nat.zero_le 11)) (notInfix ▸ read)

end Fits

/-- Whether an expression that can be spelled is read, alone and behind a sign. -/
def Legible (value : Expr) (stream : Stream) : Prop :=
  (∀ node ∈ value.nodes, isSpelled node) → ∃ term, Fits value stream term

theorem allReadable_of_legible {values : List Expr} {streams : List Stream}
    (all : List.Forall₂ Legible values streams)
    (spelled : ∀ node ∈ Expr.nodesOf values, isSpelled node) :
    ∃ terms, AllReadable values streams terms := by
  induction all with
  | nil => exact ⟨[], .nil⟩
  | cons legible _ inductionHypothesis =>
    rw [Expr.nodesOf, List.forall_mem_append] at spelled
    obtain ⟨term, fits⟩ := legible spelled.1
    obtain ⟨terms, rest⟩ := inductionHypothesis spelled.2
    exact ⟨term :: terms, .cons fits.readable rest⟩

theorem joined_punct {first : Stream} {left : Term} {sign : String} {level : Nat}
    (read : Reads 12 first.bare left) (known : infixLevel? sign = some level) (second : Stream) :
    Joined (first.punct sign ++ second).bare := by
  refine ⟨first.bare, left, sign, level, second.bare, read, known, ?_⟩
  rw [Stream.bare_append, Stream.bare_punct, List.append_assoc]
  rfl

theorem reads_parenthesized {stream : Stream} {term : Term} (read : Reads 0 stream.bare term) :
    Reads 12 (parenthesized stream).bare term := by
  rw [Stream.bare_parenthesized]
  exact (Reads.group read).weaken

/-! ### Comparisons -/

section

variable {left right : Expr} {first second : Stream} {leftTerm rightTerm : Term}

theorem isSignedComparison_of_sign {op sign : String} (known : comparisonSign? op = some sign)
    (notNone : ¬ (op = "Is" ∧ right.isNone)) (notSome : ¬ (op = "IsNot" ∧ right.isNone)) :
    isSignedComparison op right := by
  unfold comparisonSign? at known
  split_ifs at known <;> subst op <;> simp_all [isSignedComparison]

theorem reads_containment (leftRead : Readable left first leftTerm)
    (rightRead : Readable right second rightTerm) :
    ∃ test, Reads 11 (method (operand right second) "contains"
      (Stream.join (Stream.punct [] "&") ++ first)).bare test := by
  obtain ⟨argument, read⟩ := leftRead.whole.exists_behind isReference (Nat.zero_le 11)
  have test := reads_method "contains" rightRead.operand
    (@Items.last (Stream.join (Stream.punct [] "&") ++ first).bare _ read)
  exact ⟨_, test.weaken_of_le (by decide)⟩

theorem reads_comparison {op : String} {piece : Stream}
    (compared : Comparison left first op right second piece)
    (leftRead : Readable left first leftTerm) (rightRead : Readable right second rightTerm) :
    ∃ term, Reads 3 piece.bare term ∧ Behind (isSignedComparison op right) piece term := by
  have tight {op : String} {piece : Stream} {term : Term}
      (unsigned : isSignedComparison op right = false) (read : Reads 11 piece.bare term) :
      ∃ term, Reads 3 piece.bare term ∧ Behind (isSignedComparison op right) piece term :=
    ⟨term, read.weaken_of_le (by decide), unsigned ▸ read⟩
  cases compared with
  | contains =>
    obtain ⟨test, read⟩ := reads_containment leftRead rightRead
    exact tight rfl read
  | excludes =>
    obtain ⟨test, read⟩ := reads_containment leftRead rightRead
    exact tight rfl (.unary isNegation read)
  | isNone _ _ nothing =>
    have read := reads_emptyMethod "is_none" leftRead.operand
    exact tight (by simp [isSignedComparison, nothing]) (read.weaken_of_le (by decide))
  | isSome _ _ nothing =>
    have read := reads_emptyMethod "is_some" leftRead.operand
    exact tight (by simp [isSignedComparison, nothing]) (read.weaken_of_le (by decide))
  | signed _ _ _ sign notNone notSome known =>
    obtain ⟨_, level⟩ := comparisonForm_of_sign known notNone notSome
    refine ⟨_, reads_punct level leftRead.operand rightRead.operand, ?_⟩
    rw [isSignedComparison_of_sign known notNone notSome]
    exact joined_punct leftRead.operand level _

end

/-- All comparisons of a chain are read. -/
theorem reads_comparisons {left : Expr} {first : Stream} {ops : List String} {rights : List Expr}
    {streams pieces : List Stream} {leftTerm : Term} {terms : List Term}
    (compared : Comparisons left first ops rights streams pieces)
    (leftRead : Readable left first leftTerm) (rightsRead : AllReadable rights streams terms) :
    ∃ results,
      List.Forall₂ (fun piece term => Reads 3 (Stream.bare piece) term) pieces results := by
  induction compared generalizing leftTerm terms with
  | nil => exact ⟨[], .nil⟩
  | cons single rest inductionHypothesis =>
    cases rightsRead with
    | cons rightRead restRead =>
      obtain ⟨term, read, _⟩ := reads_comparison single leftRead rightRead
      obtain ⟨results, laterRead⟩ := inductionHypothesis rightRead restRead
      exact ⟨term :: results, .cons read laterRead⟩

theorem fits_compare {left : Expr} {first : Stream} {ops : List String} {rights : List Expr}
    {streams pieces : List Stream} {leftTerm : Term} {terms : List Term} (nonempty : ops ≠ [])
    (compared : Comparisons left first ops rights streams pieces)
    (leftRead : Readable left first leftTerm) (rightsRead : AllReadable rights streams terms) :
    ∃ term, Fits (.compare left ops rights) (conjunction pieces) term := by
  obtain ⟨results, piecesRead⟩ := reads_comparisons compared leftRead rightsRead
  cases compared with
  | nil => exact absurd rfl nonempty
  | cons single rest =>
    obtain _ | ⟨rightRead, _⟩ := rightsRead
    obtain ⟨term, pieceRead, behind⟩ := reads_comparison single leftRead rightRead
    cases rest with
    | nil => exact ⟨term, .of_compound rfl (pieceRead.weaken_of_le (by decide)) behind⟩
    | cons _ _ =>
      obtain ⟨result, _, resultRead⟩ := reads_conjunction (List.cons_ne_nil _ _) piecesRead
      have grouped := reads_parenthesized (pieceRead.weaken_of_le (Nat.zero_le 3))
      have joined := joined_punct grouped (show infixLevel? "&&" = some 2 from rfl)
      exact ⟨result, .of_compound rfl resultRead (joined _)⟩

/-! ### Expressions -/

variable {context : Context} {table : Table}

/-- The rules of emission keep how streams are read behind a sign. -/
theorem legibleRules : ExprRules context table Legible where
  constant value spelled := by
    have kept : ∀ node ∈ (Expr.constant value).nodes, keepsStructure node := by
      intro node member
      rw [List.mem_singleton.mp member]
      cases value <;> exact spelled _ List.mem_cons_self
    obtain ⟨term, _, readable⟩ := @readsBack_constant table value kept
    exact ⟨term, .of_simple rfl readable⟩
  name id _ := by
    obtain ⟨term, _, readable⟩ := @readsBack_name table id (by simp [Expr.nodes, keepsStructure])
    exact ⟨term, .of_simple rfl readable⟩
  binaryMethod left op right name first second known leftLegible rightLegible spelled := by
    rw [Expr.nodes, List.forall_mem_cons, List.forall_mem_append] at spelled
    obtain ⟨leftTerm, leftFits⟩ := leftLegible spelled.2.1
    obtain ⟨rightTerm, rightFits⟩ := rightLegible spelled.2.2
    have read := reads_method name leftFits.readable.operand (.last rightFits.readable.whole)
    exact ⟨_, .of_tight rfl (by rw [isInfix, known]; rfl) (read.weaken_of_le (by decide))⟩
  binarySign left op right sign first second noMethod known leftLegible rightLegible spelled := by
    rw [Expr.nodes, List.forall_mem_cons, List.forall_mem_append] at spelled
    obtain ⟨leftTerm, leftFits⟩ := leftLegible spelled.2.1
    obtain ⟨rightTerm, rightFits⟩ := rightLegible spelled.2.2
    obtain ⟨_, level, levelKnown⟩ := binaryForm_of_sign known
    have read := reads_punct levelKnown leftFits.readable.operand rightFits.readable.operand
    refine ⟨_, .of_compound rfl (read.weaken_of_le (Nat.zero_le _)) ?_⟩
    rw [isInfix, noMethod]
    exact joined_punct leftFits.readable.operand levelKnown _
  unary op value sign stream known valueLegible spelled := by
    rw [Expr.nodes, List.forall_mem_cons] at spelled
    obtain ⟨term, fits⟩ := valueLegible spelled.2
    obtain ⟨form, _, read⟩ := reads_unary known fits.readable
    exact ⟨form term, .of_tight rfl rfl read⟩
  logical op values sign streams known valuesLegible spelled := by
    rw [Expr.nodes, List.forall_mem_cons] at spelled
    obtain ⟨terms, read⟩ := allReadable_of_legible valuesLegible spelled.2
    have nonempty : values ≠ [] := by
      rintro rfl
      exact absurd spelled.1 Bool.false_ne_true
    obtain ⟨result, joined, resultRead⟩ := reads_logical known nonempty read
    obtain ⟨_, level, levelKnown, _⟩ := logicalForm_of_sign known
    refine ⟨result, .of_compound rfl resultRead ?_⟩
    obtain _ | ⟨firstRead, rest⟩ := read
    · exact absurd rfl nonempty
    cases rest with
    | nil =>
      cases joined
      exact firstRead.operand.weaken
    | cons _ _ =>
      rw [isInfix, decide_eq_true (by simp)]
      exact joined_punct firstRead.operand levelKnown _
  compare left ops rights first streams pieces nonempty emitted leftLegible rightsLegible
      spelled := by
    rw [Expr.nodes, List.forall_mem_cons, List.forall_mem_append] at spelled
    obtain ⟨leftTerm, leftFits⟩ := leftLegible spelled.2.1
    obtain ⟨terms, read⟩ := allReadable_of_legible rightsLegible spelled.2.2
    exact fits_compare nonempty emitted leftFits.readable read
  special function arguments streams stream known argumentsLegible spelled := by
    rw [Expr.nodes, List.forall_mem_cons, List.forall_mem_append] at spelled
    obtain ⟨terms, read⟩ := allReadable_of_legible argumentsLegible spelled.2.2
    obtain ⟨id, rfl, callRead⟩ := readable_special known read
    exact ⟨_, .of_simple rfl callRead⟩
  call function arguments callee streams unknown functionLegible argumentsLegible spelled := by
    rw [Expr.nodes, List.forall_mem_cons, List.forall_mem_append] at spelled
    obtain ⟨terms, read⟩ := allReadable_of_legible argumentsLegible spelled.2.2
    obtain ⟨functionTerm, functionFits⟩ := functionLegible spelled.2.1
    exact ⟨_, .of_simple rfl (reads_call functionFits.readable read)⟩
  field value attr stream valueLegible spelled := by
    rw [Expr.nodes, List.forall_mem_cons] at spelled
    obtain ⟨term, fits⟩ := valueLegible spelled.2
    exact ⟨_, .of_simple rfl (readable_field fits.readable attr)⟩
  subscript value slice stream index valueLegible sliceLegible spelled := by
    rw [Expr.nodes, List.forall_mem_cons, List.forall_mem_append] at spelled
    obtain ⟨term, fits⟩ := valueLegible spelled.2.1
    obtain ⟨indexTerm, indexFits⟩ := sliceLegible spelled.2.2
    exact ⟨_, .of_simple rfl (readable_subscript fits.readable indexFits.readable)⟩
  list items streams itemsLegible spelled := by
    rw [Expr.nodes, List.forall_mem_cons] at spelled
    obtain ⟨terms, read⟩ := allReadable_of_legible itemsLegible spelled.2
    exact ⟨.bang "vec" terms, .of_simple rfl (reads_bang "vec" (by decide) read.items)⟩
  tuple items streams itemsLegible spelled := by
    rw [Expr.nodes, List.forall_mem_cons] at spelled
    obtain ⟨terms, read⟩ := allReadable_of_legible itemsLegible spelled.2
    exact ⟨.tuple terms, .of_simple rfl (reads_tuple read)⟩
  await value stream waiting valueLegible spelled := by
    rw [Expr.nodes, List.forall_mem_cons] at spelled
    obtain ⟨term, fits⟩ := valueLegible spelled.2
    exact ⟨_, .of_simple rfl (readable_await fits.readable)⟩

theorem fits_of_expr {value : Expr} {stream : Stream}
    (lowered : expr context table value = .ok stream)
    (spelled : ∀ node ∈ value.nodes, isSpelled node) : ∃ term, Fits value stream term :=
  legibleRules.sound value stream lowered spelled

/-- A sign in front is applied to a whole expression if and only if no sign between operands is
nearer. -/
theorem Fits.eq_unary_iff {value : Expr} {stream : Stream} {term result : Term} {sign : String}
    (fits : Fits value stream term) (known : sign ∈ frontSigns)
    (read : Reads 0 (.punct sign :: stream.bare) result) :
    result = .unary sign term ↔ ¬ isInfix value := by
  have behind := fits.behind
  cases shape : isInfix value with
  | true =>
    have joined : Joined stream.bare := by rwa [shape] at behind
    refine ⟨fun whole => ?_, fun free => absurd rfl free⟩
    exact absurd (read.of_unary known rfl whole) joined.not_reads
  | false =>
    have tight : Reads 11 stream.bare term := by rwa [shape] at behind
    refine ⟨fun _ => Bool.false_ne_true, fun _ => ?_⟩
    exact read.unique ((Reads.unary known tight).weaken_of_le (Nat.zero_le 11))

/-! ### Tests -/

/-- The tokens of a test of membership, given those of its receiver and of its argument. -/
def testTokens (op : String) (receiver argument : Stream) : Stream :=
  (if op = "NotIn" then [.punct "!"] else []) ++
    (receiver ++ .punct "." :: identifier "contains" :: .punct "(" :: (argument ++ [.punct ")"]))

/-- The tree of a test of membership. -/
def testTerm (op : String) (collection argument : Term) : Term :=
  let test : Term := .method collection "contains" [argument]
  if op = "NotIn" then .unary "!" test else test

theorem reads_testTokens (op : String) {receiver argument : Stream}
    {collection argumentTerm : Term} (receiverRead : Reads 12 receiver collection)
    (argumentRead : Reads 0 argument argumentTerm) :
    Reads 0 (testTokens op receiver argument) (testTerm op collection argumentTerm) := by
  have read := Reads.method "contains" receiverRead (.last argumentRead)
  unfold testTokens testTerm
  split
  · exact (Reads.unary isNegation (read.weaken_of_le (by decide))).weaken_of_le
      (Nat.zero_le 11)
  · exact read.weaken_of_le (Nat.zero_le 13)

theorem comparison_membership {left right : Expr} {op : String} {first second : Stream}
    (whole : Expr) (test : op ∈ ["In", "NotIn"])
    (leftLowered : expr context table left = .ok first)
    (rightLowered : expr context table right = .ok second) :
    ∃ piece, comparison whole ⟨left, expr context table left⟩ op
        ⟨right, expr context table right⟩ = .ok piece ∧
      piece.bare = testTokens op (operand right second).bare (.punct "&" :: first.bare) := by
  let call := method (operand right second) "contains" (Stream.join (Stream.punct [] "&") ++ first)
  have contained : containment ⟨left, expr context table left⟩ ⟨right, expr context table right⟩ =
      .ok call :=
    containment_eq_ok.mpr ⟨second, rightLowered, first, leftLowered, rfl⟩
  simp only [List.mem_cons, List.not_mem_nil, or_false] at test
  obtain rfl | rfl := test
  · exact ⟨call, contained, Stream.bare_method _ _ _⟩
  · refine ⟨Stream.join (Stream.punct [] "!") ++ call, ?_, ?_⟩
    · rw [comparison, if_neg (by decide), if_pos rfl, contained]
      rfl
    · rw [Stream.bare_append, Stream.bare_method]
      rfl

/-- A test of membership of two expressions that are lowered is lowered, and read as a call of the
whole collection with one argument. The argument is a reference to the whole item if and only if
the item is not written with a sign between operands. -/
theorem reference_to_whole_iff {left right : Expr} {op : String} {first second : Stream}
    (whole : Expr) (test : op ∈ ["In", "NotIn"])
    (leftLowered : expr context table left = .ok first)
    (rightLowered : expr context table right = .ok second)
    (leftSpelled : ∀ node ∈ left.nodes, isSpelled node)
    (rightSpelled : ∀ node ∈ right.nodes, isSpelled node) :
    ∃ piece item collection argument,
      comparison whole ⟨left, expr context table left⟩ op ⟨right, expr context table right⟩ =
        .ok piece ∧
      piece.bare = testTokens op (operand right second).bare (.punct "&" :: first.bare) ∧
      (∀ other, Reads 0 first.bare other ↔ other = item) ∧
      (∀ other, Reads 0 second.bare other ↔ other = collection) ∧
      (∀ other, Reads 0 (.punct "&" :: first.bare) other ↔ other = argument) ∧
      (∀ other, Reads 0 piece.bare other ↔ other = testTerm op collection argument) ∧
      (argument = .unary "&" item ↔ ¬ isInfix left) := by
  obtain ⟨item, itemFits⟩ := fits_of_expr leftLowered leftSpelled
  obtain ⟨collection, collectionFits⟩ := fits_of_expr rightLowered rightSpelled
  obtain ⟨argument, argumentRead⟩ :=
    itemFits.readable.whole.exists_behind isReference (Nat.zero_le 11)
  obtain ⟨piece, compared, spelled⟩ := comparison_membership whole test leftLowered rightLowered
  have testRead := reads_testTokens op collectionFits.readable.operand argumentRead
  rw [← spelled] at testRead
  exact ⟨piece, item, collection, argument, compared, spelled, itemFits.readable.whole.iff_eq,
    collectionFits.readable.whole.iff_eq, argumentRead.iff_eq, testRead.iff_eq,
    itemFits.eq_unary_iff isReference argumentRead⟩

/-- The test `a + b in xs` has no reference to the sum. -/
theorem reference_to_whole_iff_sum :
    let sum : Expr := .binOp (.name "a") "Add" (.name "b")
    let collection : Expr := .name "xs"
    ∃ first second, expr .module Table.new sum = .ok first ∧
      expr .module Table.new collection = .ok second ∧
      (∀ node ∈ sum.nodes, isSpelled node) ∧ (∀ node ∈ collection.nodes, isSpelled node) ∧
      ∃ piece item collectionTerm argument,
        comparison (.compare sum ["In"] [collection]) ⟨sum, expr .module Table.new sum⟩ "In"
          ⟨collection, expr .module Table.new collection⟩ = .ok piece ∧
        (∀ other, Reads 0 first.bare other ↔ other = item) ∧
        (∀ other, Reads 0 piece.bare other ↔ other = testTerm "In" collectionTerm argument) ∧
        argument ≠ .unary "&" item := by
  intro sum collection
  obtain ⟨first, sumLowered⟩ : ∃ first, expr .module Table.new sum = .ok first := ⟨_, rfl⟩
  obtain ⟨second, lowered⟩ : ∃ second, expr .module Table.new collection = .ok second := ⟨_, rfl⟩
  have sumSpelled : ∀ node ∈ sum.nodes, isSpelled node := by decide
  have spelled : ∀ node ∈ collection.nodes, isSpelled node := by decide
  obtain ⟨piece, item, term, argument, compared, _, itemRead, _, _, testRead, wholeIff⟩ :=
    reference_to_whole_iff (.compare sum ["In"] [collection])
      (show "In" ∈ ["In", "NotIn"] by decide) sumLowered lowered sumSpelled spelled
  refine ⟨first, second, sumLowered, lowered, sumSpelled, spelled, piece, item, term, argument,
    compared, itemRead, testRead, fun isWhole => ?_⟩
  exact wholeIff.mp isWhole rfl

end Lower

end Oxide
