/-
This file gives the arithmetic of the written language on signed integers of 64 bits. An operation
on words either has a word as its result or stops the program: if the result does not fit, if a
divisor is zero, or if a shift counts as far as a word is wide. The lemmas say for each operation
when it gives the number that the same operation gives on numbers without a bound.
-/

import Mathlib.Data.Int.Bitwise
import Mathlib.Tactic.SplitIfs

namespace Oxide

/-- A signed integer of 64 bits. -/
abbrev Word := BitVec 64

/-- Whether a word can hold a number. -/
def Fits (number : Int) : Prop :=
  -2 ^ 63 ≤ number ∧ number < 2 ^ 63

instance (number : Int) : Decidable (Fits number) :=
  inferInstanceAs (Decidable (_ ∧ _))

namespace Word

/-! ### Words and numbers -/

/-- A number that fits is kept by its word. -/
theorem toInt_ofInt {number : Int} (fits : Fits number) :
    (BitVec.ofInt 64 number).toInt = number :=
  BitVec.toInt_ofInt_eq_self (by decide) fits.1 fits.2

/-- A bit far enough to the left is that of the sign. -/
theorem testBit_add {first second : Nat} :
    first.testBit (first + second) = false ∧ second.testBit (first + second) = false :=
  ⟨Nat.testBit_lt_two_pow (lt_of_le_of_lt (Nat.le_add_right _ _) Nat.lt_two_pow_self),
    Nat.testBit_lt_two_pow (lt_of_le_of_lt (Nat.le_add_left _ _) Nat.lt_two_pow_self)⟩

/-- Numbers with the same bits are the same. -/
theorem eq_of_testBit_eq {first second : Int}
    (same : ∀ place, first.testBit place = second.testBit place) : first = second := by
  cases first with
  | ofNat m =>
    cases second with
    | ofNat n => exact congrArg Int.ofNat (Nat.eq_of_testBit_eq same)
    | negSucc n =>
      have high := same (m + n)
      simp only [Int.testBit, testBit_add] at high
      cases high
  | negSucc m =>
    cases second with
    | ofNat n =>
      have high := same (m + n)
      simp only [Int.testBit, testBit_add] at high
      cases high
    | negSucc n =>
      exact congrArg Int.negSucc (Nat.eq_of_testBit_eq fun place => Bool.not_inj (same place))

/-- The bits of a word are those of its number, and the bit of the sign is repeated to the left. -/
theorem testBit_toInt (word : Word) (place : Nat) :
    word.toInt.testBit place = if place < 64 then word.getLsbD place else word.msb := by
  cases sign : word.msb with
  | false =>
    rw [BitVec.toInt_eq_toNat_of_msb sign]
    change word.toNat.testBit place = _
    rw [BitVec.testBit_toNat]
    split
    · rfl
    · exact BitVec.getLsbD_of_ge word place (by omega)
  | true =>
    have negative : word.toInt = Int.negSucc (~~~word).toNat := by
      have bound := word.isLt
      rw [BitVec.toInt_eq_msb_cond, if_pos sign, BitVec.toNat_not]
      omega
    rw [negative]
    change (!(~~~word).toNat.testBit place) = _
    rw [BitVec.testBit_toNat, BitVec.getLsbD_not]
    split <;> simp [*]

/-- The bits of words are combined as those of numbers, which go on for ever. -/
theorem toInt_and (first second : Word) :
    (first &&& second).toInt = Int.land first.toInt second.toInt := by
  refine eq_of_testBit_eq fun place => ?_
  rw [Int.testBit_land, testBit_toInt, testBit_toInt, testBit_toInt]
  split
  · exact BitVec.getLsbD_and
  · exact BitVec.msb_and

theorem toInt_or (first second : Word) :
    (first ||| second).toInt = Int.lor first.toInt second.toInt := by
  refine eq_of_testBit_eq fun place => ?_
  rw [Int.testBit_lor, testBit_toInt, testBit_toInt, testBit_toInt]
  split
  · exact BitVec.getLsbD_or
  · exact BitVec.msb_or

theorem toInt_xor (first second : Word) :
    (first ^^^ second).toInt = Int.xor first.toInt second.toInt := by
  refine eq_of_testBit_eq fun place => ?_
  rw [Int.testBit_lxor, testBit_toInt, testBit_toInt, testBit_toInt]
  split
  · exact BitVec.getLsbD_xor
  · exact BitVec.msb_xor

/-- A word with all bits turned over is one below the negative. -/
theorem toInt_not (word : Word) : (~~~word).toInt = -word.toInt - 1 := by
  have bound := word.isLt
  rw [BitVec.toInt_eq_toNat_cond, BitVec.toInt_eq_toNat_cond, BitVec.toNat_not]
  split <;> split <;> omega

/-- A shift to the left multiplies by a power of two where the product fits. -/
theorem toInt_shiftLeft {word : Word} {count : Nat} (fits : Fits (word.toInt * 2 ^ count)) :
    (word <<< count).toInt = word.toInt * 2 ^ count := by
  have power : BitVec.twoPow 64 count = BitVec.ofInt 64 (2 ^ count) := by
    refine BitVec.eq_of_toNat_eq ?_
    have cast : (2 : Int) ^ count = ((2 ^ count : Nat) : Int) := by push_cast; rfl
    rw [cast, BitVec.ofInt_natCast, BitVec.toNat_twoPow, BitVec.toNat_ofNat]
  have product : word <<< count = BitVec.ofInt 64 (word.toInt * 2 ^ count) := by
    rw [BitVec.shiftLeft_eq_mul_twoPow, BitVec.ofInt_mul, BitVec.ofInt_toInt, power]
  rw [product, toInt_ofInt fits]

/-! ### Operations that may stop -/

/-- The word for a number, if it fits. -/
def checked (number : Int) : Option Word :=
  if Fits number then some (BitVec.ofInt 64 number) else none

/-- Whether a division stops: there is no divisor, or the quotient has no word. -/
def Undivided (left right : Word) : Prop :=
  right.toInt = 0 ∨ (left.toInt = -2 ^ 63 ∧ right.toInt = -1)

instance (left right : Word) : Decidable (Undivided left right) :=
  inferInstanceAs (Decidable (_ ∨ _))

/-- The quotient whose remainder is not negative. -/
def quotient? (left right : Word) : Option Word :=
  if Undivided left right then none else some (BitVec.ofInt 64 (left.toInt / right.toInt))

/-- The remainder that has the sign of the dividend. -/
def remainder? (left right : Word) : Option Word :=
  if Undivided left right then none else some (left.srem right)

/-- A shift by less than the width of a word. -/
def shifted? (shift : Word → Nat → Word) (word count : Word) : Option Word :=
  if 0 ≤ count.toInt ∧ count.toInt < 64 then some (shift word count.toInt.toNat) else none

/-- The operations that have a sign between their operands. -/
def binary? : String → Word → Word → Option Word
  | "+", left, right => checked (left.toInt + right.toInt)
  | "-", left, right => checked (left.toInt - right.toInt)
  | "*", left, right => checked (left.toInt * right.toInt)
  | "%", left, right => remainder? left right
  | "<<", left, right => shifted? (· <<< ·) left right
  | ">>", left, right => shifted? BitVec.sshiftRight left right
  | "|", left, right => some (left ||| right)
  | "^", left, right => some (left ^^^ right)
  | "&", left, right => some (left &&& right)
  | _, _, _ => none

/-- The operations that have a sign in front of their operand. -/
def unary? : String → Word → Option Word
  | "-", word => checked (-word.toInt)
  | "!", word => some (~~~word)
  | _, _ => none

/-! ### When an operation gives a number -/

/-- Whether a computation does not stop and its result is the number. -/
def Gives (result : Option Word) (number : Int) : Prop :=
  ∃ word, result = some word ∧ word.toInt = number

theorem gives_some {word : Word} {number : Int} : Gives (some word) number ↔ word.toInt = number :=
  ⟨by rintro ⟨_, ⟨⟩, same⟩; exact same, fun same => ⟨word, rfl, same⟩⟩

theorem not_gives_none {number : Int} : ¬ Gives none number := nofun

/-- A checked operation gives the number if it fits. -/
theorem gives_checked {number : Int} (fits : Fits number) : Gives (checked number) number := by
  rw [checked, if_pos fits, gives_some]
  exact toInt_ofInt fits

/-- The quotient is the one that is rounded down unless the divisor is negative and leaves a
remainder. -/
theorem gives_quotient_iff {left right : Word} (divisor : right.toInt ≠ 0)
    (fits : Fits (left.toInt.fdiv right.toInt)) :
    Gives (quotient? left right) (left.toInt.fdiv right.toInt) ↔
      0 < right.toInt ∨ right.toInt ∣ left.toInt := by
  have divided : ¬ Undivided left right := by
    rintro (zero | ⟨least, minusOne⟩)
    · exact divisor zero
    · rw [least, minusOne] at fits
      exact absurd fits (by decide)
  have rounded := @Int.fdiv_eq_ediv left.toInt right.toInt
  rw [quotient?, if_neg divided, gives_some]
  by_cases exact : 0 ≤ right.toInt ∨ right.toInt ∣ left.toInt
  · rw [if_pos exact, Int.sub_zero] at rounded
    rw [rounded] at fits ⊢
    refine iff_of_true (toInt_ofInt fits) (exact.imp_left fun positive => ?_)
    omega
  · rw [if_neg exact] at rounded
    refine iff_of_false (fun same => ?_) fun kept => exact (kept.imp_left Int.le_of_lt)
    have above : left.toInt / right.toInt = left.toInt.fdiv right.toInt + 1 := by omega
    rw [above, BitVec.toInt_ofInt] at same
    generalize left.toInt.fdiv right.toInt = number at fits same
    obtain ⟨low, high⟩ := fits
    rw [Int.bmod_def] at same
    omega

/-- Whether the remainder with the sign of the divisor is also that with the sign of the dividend,
and can be computed. -/
def ExactRemainder (left right : Int) : Prop :=
  (right ∣ left ∨ (0 < left ↔ 0 < right)) ∧ ¬ (left = -2 ^ 63 ∧ right = -1)

instance (left right : Int) : Decidable (ExactRemainder left right) :=
  inferInstanceAs (Decidable (_ ∧ _))

/-- The remainder is the one with the sign of the divisor only in the exact cases. -/
theorem gives_remainder_iff {left right : Word} (divisor : right.toInt ≠ 0) :
    Gives (remainder? left right) (left.toInt.fmod right.toInt) ↔
      ExactRemainder left.toInt right.toInt := by
  rw [remainder?]
  by_cases undivided : Undivided left right
  · rw [if_pos undivided]
    refine iff_of_false not_gives_none fun exact => ?_
    exact undivided.elim divisor exact.2
  · have computed : ¬ (left.toInt = -2 ^ 63 ∧ right.toInt = -1) := fun both => undivided (.inr both)
    rw [if_neg undivided, gives_some, BitVec.toInt_srem, Int.fmod_eq_tmod, ExactRemainder,
      and_iff_left computed]
    by_cases divides : right.toInt ∣ left.toInt
    · simp [divides]
    · have nonzero : left.toInt ≠ 0 := fun zero => divides (zero ▸ Int.dvd_zero _)
      generalize left.toInt.tmod right.toInt = remainder
      simp only [divides, if_false, false_or]
      split_ifs <;> omega

/-- A shift gives a number if its amount is small enough. -/
theorem gives_shifted {shift : Word → Nat → Word} {word count : Word} {number : Int}
    (positive : 0 ≤ count.toInt) (below : count.toInt < 64)
    (same : (shift word count.toInt.toNat).toInt = number) :
    Gives (shifted? shift word count) number := by
  rw [shifted?, if_pos ⟨positive, below⟩, gives_some]
  exact same

/-- A shift to the right divides by a power of two and rounds down. -/
theorem toInt_sshiftRight (word : Word) (count : Nat) :
    (word.sshiftRight count).toInt = word.toInt.fdiv (2 ^ count) := by
  rw [BitVec.toInt_sshiftRight, Int.shiftRight_eq_div_pow, Int.fdiv_eq_ediv_of_nonneg]
  · push_cast
    rfl
  · exact Int.pow_nonneg (by decide)

end Word

end Oxide
