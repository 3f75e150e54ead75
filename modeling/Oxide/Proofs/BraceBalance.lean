/-
This file proves that the braces of a stream alone decide whether it is laid out. `Stream.balance`
is how many more braces a stream opens than it closes. `Layout.fault?` adds up the braces one token
after another, and it finds the same fault as the layout, which passes over some semicolons. So the
faults are told by the balances of the beginnings of a stream.
-/

import Oxide.Proofs.Lines

namespace Oxide

open Text

/-! ### Counting braces -/

namespace Token

variable {token : Token}

/-- How the count of open braces changes at a token. -/
def braceChange (token : Token) : Int :=
  if token.isPunct openBrace then 1 else if token.isPunct closeBrace then -1 else 0

theorem braceChange_of_opening (isOpening : token.isPunct openBrace) : token.braceChange = 1 :=
  if_pos isOpening

theorem braceChange_of_closing (isClosing : token.isPunct closeBrace) :
    token.braceChange = -1 := by
  rw [braceChange, Layout.isPunct_eq_false_of_isPunct isClosing (by decide), if_pos isClosing]
  rfl

/-- Only a closing brace lowers the balance. -/
theorem isPunct_closeBrace_of_braceChange_neg (below : token.braceChange < 0) :
    token.isPunct closeBrace := by
  unfold braceChange at below
  split at below
  · cases below
  split at below
  · assumption
  · cases below

end Token

namespace Stream

/-- How many more braces a stream opens than it closes. -/
def balance (stream : Stream) : Int :=
  stream.countP (·.isPunct openBrace) - stream.countP (·.isPunct closeBrace)

theorem balance_nil : balance [] = 0 := rfl

theorem balance_append (first second : Stream) :
    balance (first ++ second) = balance first + balance second := by
  simp only [balance, List.countP_append, Int.natCast_add]
  omega

theorem balance_singleton (token : Token) : balance [token] = token.braceChange := by
  unfold balance
  rw [List.countP_singleton, List.countP_singleton]
  by_cases isOpening : token.isPunct openBrace
  · rw [if_pos isOpening, Layout.isPunct_eq_false_of_isPunct isOpening (by decide),
      Token.braceChange_of_opening isOpening]
    rfl
  · rw [if_neg isOpening, Token.braceChange, if_neg isOpening]
    split <;> rfl

theorem balance_concat (before : Stream) (token : Token) :
    balance (before ++ [token]) = before.balance + token.braceChange := by
  rw [balance_append, balance_singleton]

theorem balance_cons (token : Token) (rest : Stream) :
    balance (token :: rest) = token.braceChange + balance rest := by
  rw [← balance_singleton, ← balance_append, List.singleton_append]

/-- Whether the braces that are open, this many before the stream, are enough for all that its
beginnings close. -/
def Covered (depth : Int) (stream : Stream) : Prop :=
  ∀ front : Stream, front <+: stream → 0 ≤ depth + front.balance

/-- Whether the token at a position is the first one to close a brace that nothing has opened, with
this many braces open before the stream. -/
def OverclosedAt (depth : Int) (stream : Stream) (position : Nat) : Prop :=
  ∃ before token behind, stream = before ++ token :: behind ∧ before.length = position ∧
    token.isPunct closeBrace ∧ Covered depth before ∧ depth + balance (before ++ [token]) < 0

variable {depth : Int} {token : Token} {rest stream : Stream} {position : Nat}

theorem Covered.nonneg (covered : Covered depth stream) : 0 ≤ depth := by
  have start := covered [] List.nil_prefix
  rwa [balance_nil, Int.add_zero] at start

theorem covered_nil (nonneg : 0 ≤ depth) : Covered depth [] := by
  intro front inside
  rwa [List.prefix_nil.mp inside, balance_nil, Int.add_zero]

/-- A stream is covered if it starts at no negative depth and what follows is covered. -/
theorem covered_cons : Covered depth (token :: rest) ↔
    0 ≤ depth ∧ Covered (depth + token.braceChange) rest := by
  constructor
  · intro covered
    refine ⟨covered.nonneg, fun front inside => ?_⟩
    have later := covered (token :: front) (List.prefix_cons_iff.mpr (.inr ⟨front, rfl, inside⟩))
    rwa [balance_cons, ← Int.add_assoc] at later
  · rintro ⟨nonneg, covered⟩ front inside
    obtain rfl | ⟨later, rfl, laterInside⟩ := List.prefix_cons_iff.mp inside
    · rwa [balance_nil, Int.add_zero]
    · rw [balance_cons, ← Int.add_assoc]
      exact covered later laterInside

/-- The position of the first brace too many is counted from the start of the stream. -/
theorem overclosedAt_cons (nonneg : 0 ≤ depth)
    (later : OverclosedAt (depth + token.braceChange) rest position) :
    OverclosedAt depth (token :: rest) (position + 1) := by
  obtain ⟨before, closing, behind, rfl, rfl, isClosing, covered, below⟩ := later
  refine ⟨token :: before, closing, behind, rfl, rfl, isClosing,
    covered_cons.mpr ⟨nonneg, covered⟩, ?_⟩
  rwa [List.cons_append, balance_cons, ← Int.add_assoc]

/-- Where the open braces are not enough, there is a first one that nothing has opened. -/
theorem exists_overclosedAt (nonneg : 0 ≤ depth) (uncovered : ¬ Covered depth stream) :
    ∃ position, OverclosedAt depth stream position := by
  induction stream generalizing depth with
  | nil => exact absurd (covered_nil nonneg) uncovered
  | cons token rest inductionHypothesis =>
    by_cases below : depth + token.braceChange < 0
    · have closes : token.braceChange < 0 := by omega
      refine ⟨0, [], token, rest, rfl, rfl, Token.isPunct_closeBrace_of_braceChange_neg closes,
        covered_nil nonneg, ?_⟩
      rwa [List.nil_append, balance_singleton]
    · have restUncovered : ¬ Covered (depth + token.braceChange) rest :=
        fun covered => uncovered (covered_cons.mpr ⟨nonneg, covered⟩)
      obtain ⟨position, overclosed⟩ := inductionHypothesis (Int.not_lt.mp below) restUncovered
      exact ⟨position + 1, overclosedAt_cons nonneg overclosed⟩

end Stream

/-! ### The fault of a stream -/

namespace Layout

/-- The fault of a stream whose first token has the given position, with this many braces open
before it, or nothing if the braces balance. -/
def fault? (position : Nat) (depth : Int) : Stream → Option Fault
  | [] => if depth = 0 then none else some (.leftOpen depth.toNat)
  | token :: rest =>
    if depth + token.braceChange < 0 then some (.closedTooOften position)
    else fault? (position + 1) (depth + token.braceChange) rest

/-- The fault that a layout ends with. -/
def faultOf? : Except Fault Bytes → Option Fault
  | .ok _ => none
  | .error fault => some fault

/-- What is written before does not change a fault. -/
theorem faultOf?_map (add : Bytes → Bytes) (result : Except Fault Bytes) :
    faultOf? (add <$> result) = faultOf? result := by
  cases result <;> rfl

section Steps

variable {token : Token} {rest : Stream}

theorem fault?_opening (position depth : Nat) (role : roleOf token = .opening) :
    fault? position depth (token :: rest) = fault? (position + 1) (depth + 1 : Nat) rest := by
  rw [fault?, Token.braceChange_of_opening (roleOf_eq_opening.mp role), if_neg (by omega)]
  rfl

/-- A closing brace that is covered takes one off the depth. -/
theorem fault?_closing (position outer : Nat) (role : roleOf token = .closing) :
    fault? position (outer + 1 : Nat) (token :: rest) = fault? (position + 1) outer rest := by
  rw [fault?, Token.braceChange_of_closing (roleOf_eq_closing.mp role), if_neg (by omega)]
  congr 1
  omega

/-- A closing brace at depth zero is one too many. -/
theorem fault?_overclosing (position : Nat) (role : roleOf token = .closing) :
    fault? position 0 (token :: rest) = some (.closedTooOften position) := by
  rw [fault?, Token.braceChange_of_closing (roleOf_eq_closing.mp role)]
  rfl

theorem braceChange_of_role (notOpening : roleOf token ≠ .opening)
    (notClosing : roleOf token ≠ .closing) : token.braceChange = 0 := by
  have noOpening : ¬ token.isPunct openBrace := mt roleOf_eq_opening.mpr notOpening
  have noClosing : ¬ token.isPunct closeBrace := mt roleOf_eq_closing.mpr notClosing
  rw [Token.braceChange, if_neg noOpening, if_neg noClosing]

/-- Other tokens only count as positions. -/
theorem fault?_other (position depth : Nat) (notOpening : roleOf token ≠ .opening)
    (notClosing : roleOf token ≠ .closing) :
    fault? position depth (token :: rest) = fault? (position + 1) depth rest := by
  rw [fault?, braceChange_of_role notOpening notClosing, Int.add_zero, if_neg (by omega)]

end Steps

/-- The layout and the count of the braces end with the same fault. -/
theorem faultOf?_layoutFrom (position depth : Nat) (fresh : Bool) (previous : Token)
    (stream : Stream) :
    faultOf? (layoutFrom position depth fresh previous stream) = fault? position depth stream := by
  have semicolon {next : Token} (isSemicolon : next.isPunct ";") (position depth : Nat)
      (rest : Stream) :
      fault? position depth (next :: rest) = fault? (position + 1) depth rest := by
    have role := roleOf_eq_terminator.mpr isSemicolon
    exact fault?_other position depth (by simp [role]) (by simp [role])
  fun_induction layoutFrom position depth fresh previous stream with
  | case1 position depth _ _ nonzero =>
    rw [fault?, if_neg (by omega)]
    rfl
  | case2 _ depth _ _ balanced =>
    obtain rfl : depth = 0 := Decidable.not_not.mp balanced
    rfl
  | case3 position depth _ _ _ _ role inductionHypothesis
  | case11 position depth _ _ _ _ role inductionHypothesis
  | case12 position depth _ _ _ _ role inductionHypothesis =>
    rw [faultOf?_map, inductionHypothesis,
      fault?_other position depth (by simp [role]) (by simp [role])]
  | case4 position depth _ _ _ _ role inductionHypothesis =>
    rw [faultOf?_map, inductionHypothesis, fault?_opening position depth role]
  | case5 position _ _ _ _ role => exact (fault?_overclosing position role).symm
  | case6 position _ _ _ role outer _ inductionHypothesis =>
    rw [faultOf?_map, inductionHypothesis, fault?_closing position outer role]
  | case7 position _ _ _ role outer _ _ _ isSemicolon _ inductionHypothesis
  | case8 position _ _ _ role outer _ _ _ isSemicolon _ inductionHypothesis =>
    rw [faultOf?_map, inductionHypothesis, fault?_closing position outer role,
      semicolon isSemicolon]
  | case9 position _ _ _ role outer _ _ _ _ _ inductionHypothesis
  | case10 position _ _ _ role outer _ _ _ _ _ inductionHypothesis =>
    rw [faultOf?_map, inductionHypothesis, fault?_closing position outer role]

/-- With enough open braces, only those that are left over at the end are a fault. -/
theorem fault?_of_covered {depth : Int} {stream : Stream} (covered : stream.Covered depth)
    (position : Nat) : fault? position depth stream =
      if depth + stream.balance = 0 then none
      else some (.leftOpen (depth + stream.balance).toNat) := by
  induction stream generalizing position depth with
  | nil => rw [fault?, Stream.balance_nil, Int.add_zero]
  | cons token rest inductionHypothesis =>
    have restCovered := (Stream.covered_cons.mp covered).2
    rw [fault?, if_neg (Int.not_lt.mpr restCovered.nonneg), inductionHypothesis restCovered,
      Stream.balance_cons, Int.add_assoc]

/-- The first brace that nothing has opened is the fault. -/
theorem fault?_of_overclosedAt {depth : Int} {stream : Stream} {distance : Nat}
    (overclosed : stream.OverclosedAt depth distance) (position : Nat) :
    fault? position depth stream = some (.closedTooOften (position + distance)) := by
  obtain ⟨before, token, behind, rfl, rfl, _, covered, below⟩ := overclosed
  induction before generalizing position depth with
  | nil =>
    rw [List.nil_append, Stream.balance_singleton] at below
    rw [List.nil_append, fault?, if_pos below]
    rfl
  | cons first rest inductionHypothesis =>
    have restCovered := (Stream.covered_cons.mp covered).2
    rw [List.cons_append, Stream.balance_cons, ← Int.add_assoc] at below
    rw [List.cons_append, fault?, if_neg (Int.not_lt.mpr restCovered.nonneg),
      inductionHypothesis (position + 1) restCovered below, List.length_cons, Nat.add_assoc,
      Nat.add_comm 1]

variable {stream : Stream}

/-- There is no fault if all closing braces are covered and none is missing. -/
theorem fault?_eq_none_iff :
    fault? 0 0 stream = none ↔ stream.Covered 0 ∧ stream.balance = 0 := by
  constructor
  · intro faultless
    by_cases covered : stream.Covered 0
    · rw [fault?_of_covered covered, Int.zero_add] at faultless
      exact ⟨covered, by simpa using faultless⟩
    · obtain ⟨position, overclosed⟩ := Stream.exists_overclosedAt (Int.le_refl 0) covered
      cases (fault?_of_overclosedAt overclosed 0).symm.trans faultless
  · rintro ⟨covered, balanced⟩
    rw [fault?_of_covered covered, Int.zero_add, if_pos balanced]

/-- The first closing brace that is not covered is the fault. -/
theorem fault?_eq_closedTooOften_iff {position : Nat} :
    fault? 0 0 stream = some (.closedTooOften position) ↔ stream.OverclosedAt 0 position := by
  constructor
  · intro fault
    by_cases covered : stream.Covered 0
    · rw [fault?_of_covered covered] at fault
      split at fault <;> cases fault
    · obtain ⟨first, overclosed⟩ := Stream.exists_overclosedAt (Int.le_refl 0) covered
      rw [fault?_of_overclosedAt overclosed, Nat.zero_add] at fault
      cases fault
      exact overclosed
  · intro overclosed
    rw [fault?_of_overclosedAt overclosed, Nat.zero_add]

/-- The braces left open are the balance, if all closing braces are covered. -/
theorem fault?_eq_leftOpen_iff {depth : Nat} :
    fault? 0 0 stream = some (.leftOpen depth) ↔
      stream.Covered 0 ∧ stream.balance = depth ∧ 0 < depth := by
  constructor
  · intro fault
    by_cases covered : stream.Covered 0
    · have nonneg := covered stream (List.prefix_refl stream)
      rw [fault?_of_covered covered, Int.zero_add] at fault
      split at fault
      · cases fault
      · cases fault
        exact ⟨covered, by omega, by omega⟩
    · obtain ⟨position, overclosed⟩ := Stream.exists_overclosedAt (Int.le_refl 0) covered
      cases (fault?_of_overclosedAt overclosed 0).symm.trans fault
  · rintro ⟨covered, balanced, positive⟩
    rw [fault?_of_covered covered, Int.zero_add, balanced, if_neg (by omega), Int.toNat_natCast]

theorem faultOf?_eq_some_iff {result : Except Fault Bytes} {fault : Fault} :
    faultOf? result = some fault ↔ result = .error fault := by
  cases result with
  | error other => simp [faultOf?]
  | ok text => simp [faultOf?]

theorem faultOf?_eq_none_iff {result : Except Fault Bytes} :
    faultOf? result = none ↔ ∃ text, result = .ok text := by
  cases result with
  | error fault => simp [faultOf?]
  | ok text => simp [faultOf?]

/-- Which fault a layout has only depends on the braces of the stream. -/
theorem faultOf?_layoutBehind (written : Bytes) (stream : Stream) :
    faultOf? (layoutBehind written stream) = fault? 0 0 stream := by
  rw [layoutBehind, faultOf?_map]
  exact faultOf?_layoutFrom 0 0 true default stream

/-- A stream is laid out exactly if none of its beginnings closes more braces than it opens and the
whole closes all of them. Otherwise the fault is the position of the first brace that nothing has
opened, or, where there is no such brace, the count of those that are left open. -/
theorem layoutBehind_outcome (written : Bytes) (stream : Stream) :
    ((∃ text, layoutBehind written stream = .ok text) ↔
      stream.Covered 0 ∧ stream.balance = 0) ∧
    (∀ position, layoutBehind written stream = .error (.closedTooOften position) ↔
      stream.OverclosedAt 0 position) ∧
    ∀ depth : Nat, layoutBehind written stream = .error (.leftOpen depth) ↔
      stream.Covered 0 ∧ stream.balance = depth ∧ 0 < depth := by
  have outcome := faultOf?_layoutBehind written stream
  refine ⟨?_, fun position => ?_, fun depth => ?_⟩
  · rw [← faultOf?_eq_none_iff, outcome, fault?_eq_none_iff]
  · rw [← faultOf?_eq_some_iff, outcome, fault?_eq_closedTooOften_iff]
  · rw [← faultOf?_eq_some_iff, outcome, fault?_eq_leftOpen_iff]

end Layout

end Oxide
