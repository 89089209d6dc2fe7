import Mathlib

/-! # Binary64 numbers

A floating-point number of 64 bits: its sign, exponent and fraction, the number it stands for
unless it is infinite or no number, and the conversions from integers and from 32 bits.
-/

/-- A number in the binary64 format, as its bits. -/
structure Binary64 where
  bits : BitVec 64
deriving DecidableEq

namespace Binary64

variable (number : Binary64)

def negative : Bool := number.bits.msb

/-- The biased exponent. -/
def exponent : Nat := number.bits.toNat / 2 ^ 52 % 2 ^ 11

def fraction : Nat := number.bits.toNat % 2 ^ 52

/-- `f64::is_finite`: neither infinite nor NaN. -/
def isFinite : Bool := decide (number.exponent ≠ 2047)

/-- The significand: with a leading bit, unless the number is subnormal. -/
def significand : Nat :=
  if number.exponent = 0 then number.fraction else 2 ^ 52 + number.fraction

def scale : ℤ := max number.exponent 1 - 1075

/-- The number a finite pattern stands for. -/
def value : ℚ :=
  (if number.negative then -1 else 1) * (number.significand : ℚ) * 2 ^ number.scale

/-- `number <= 0.0`: false of NaN, true of both zeros. -/
def leZero : Bool :=
  !(decide (number.exponent = 2047) && decide (number.fraction ≠ 0)) &&
    (number.negative || decide (number.significand = 0))

/-- The comparison with zero compares what a finite pattern stands for. -/
theorem leZero_iff {number : Binary64} (finite : number.isFinite = true) :
    number.leZero = true ↔ number.value ≤ 0 := by
  have notSpecial : number.exponent ≠ 2047 := of_decide_eq_true finite
  have scaled : (0 : ℚ) < 2 ^ number.scale := by positivity
  have compare : number.leZero = true ↔ number.negative = true ∨ number.significand = 0 := by
    simp [leZero, notSpecial]
  rw [compare, value]
  cases number.negative with
  | true =>
      have nonpositive : (-1 : ℚ) * number.significand ≤ 0 := by
        rw [neg_one_mul, neg_nonpos]
        exact Nat.cast_nonneg _
      simp only [true_or, if_true, true_iff]
      exact mul_nonpos_of_nonpos_of_nonneg nonpositive scaled.le
  | false =>
      simp only [Bool.false_eq_true, if_false, false_or, one_mul]
      rw [← not_lt, mul_pos_iff_of_pos_right scaled, Nat.cast_pos, Nat.pos_iff_ne_zero, not_not]

/-! ## Conversions -/

/-- A significand shifted down by this many bits, to the nearest, ties to even. -/
def roundShift (significand bits : Nat) : Nat :=
  let quotient := significand / 2 ^ bits
  let rest := 2 * (significand % 2 ^ bits)
  if 2 ^ bits < rest ∨ (rest = 2 ^ bits ∧ quotient % 2 = 1) then quotient + 1 else quotient

/-- The bits of a positive integer below `2 ^ 64`: a significand that rounds up to the next power of
two carries into the exponent. -/
def natBits (value : Nat) : Nat :=
  let leading := Nat.log2 value
  let significand :=
    if leading ≤ 52 then value * 2 ^ (52 - leading) else roundShift value (leading - 52)
  (1022 + leading) * 2 ^ 52 + significand

/-- `value as f64` of a `u64`. -/
def ofUnsigned (value : UInt64) : Binary64 :=
  ⟨BitVec.ofNat 64 (if value = 0 then 0 else natBits value.toNat)⟩

/-- A quotient is rounded by at most one. -/
theorem roundShift_bounds (significand bits : Nat) :
    significand / 2 ^ bits ≤ roundShift significand bits ∧
      roundShift significand bits ≤ significand / 2 ^ bits + 1 := by
  unfold roundShift
  dsimp only
  split <;> omega

/-- An integer has a significand of 53 bits, or the next power of two. -/
theorem natBits_bounds {value : Nat} (positive : value ≠ 0) (bounded : value < 2 ^ 64) :
    1023 * 2 ^ 52 ≤ natBits value ∧ natBits value < 1088 * 2 ^ 52 := by
  have low := Nat.log2_self_le positive
  have high := Nat.lt_log2_self (n := value)
  have leading : Nat.log2 value < 64 := (Nat.log2_lt positive).mpr bounded
  unfold natBits
  dsimp only
  generalize Nat.log2 value = bits at low high leading
  split
  case isTrue short =>
    have scaled : 2 ^ bits * 2 ^ (52 - bits) = 2 ^ 52 := by
      rw [← pow_add]
      congr 1
      omega
    have atLeast := Nat.mul_le_mul_right (2 ^ (52 - bits)) low
    have below := Nat.mul_lt_mul_of_pos_right high (Nat.two_pow_pos (52 - bits))
    rw [pow_succ, Nat.mul_right_comm, scaled] at below
    rw [scaled] at atLeast
    omega
  case isFalse long =>
    have scaled : 2 ^ bits = 2 ^ 52 * 2 ^ (bits - 52) := by
      rw [← pow_add]
      congr 1
      omega
    obtain ⟨down, up⟩ := roundShift_bounds value (bits - 52)
    have atLeast : 2 ^ 52 ≤ value / 2 ^ (bits - 52) := by
      rw [Nat.le_div_iff_mul_le (Nat.two_pow_pos _), ← scaled]
      exact low
    have below : value / 2 ^ (bits - 52) < 2 ^ 53 := by
      rw [Nat.div_lt_iff_lt_mul (Nat.two_pow_pos _)]
      rw [pow_succ, scaled] at high
      omega
    omega

/-- A positive integer converts to a finite positive number. -/
theorem ofUnsigned_positive {value : UInt64} (positive : value ≠ 0) :
    (ofUnsigned value).isFinite = true ∧ (ofUnsigned value).leZero = false := by
  have nonzero : value.toNat ≠ 0 := fun zero => positive (UInt64.toNat_inj.mp zero)
  obtain ⟨low, high⟩ := natBits_bounds nonzero value.toNat_lt
  have bits : (ofUnsigned value).bits.toNat = natBits value.toNat := by
    rw [ofUnsigned, if_neg positive, BitVec.toNat_ofNat]
    omega
  have inRange : 1023 ≤ (ofUnsigned value).exponent ∧ (ofUnsigned value).exponent < 1088 := by
    rw [exponent, bits]
    omega
  have sign : (ofUnsigned value).negative = false := by
    rw [negative, BitVec.msb_eq_decide, bits]
    exact decide_eq_false (by omega)
  have leading : (ofUnsigned value).significand ≠ 0 := by
    rw [significand, if_neg (by omega)]
    omega
  constructor
  · exact decide_eq_true (by omega)
  · simp [leZero, sign, leading]

def opposite : Binary64 := ⟨number.bits ^^^ BitVec.ofNat 64 (2 ^ 63)⟩

/-- `value as f64` of an `i64`. -/
def ofSigned (value : Int64) : Binary64 :=
  if value < 0 then (ofUnsigned (UInt64.ofNat value.toInt.natAbs)).opposite
  else ofUnsigned (UInt64.ofNat value.toInt.natAbs)

/-- `value as f64` of an `f32`, by its bits; exact. -/
def ofSingle (bits : BitVec 32) : Binary64 :=
  let exponent := bits.toNat / 2 ^ 23 % 2 ^ 8
  let fraction := bits.toNat % 2 ^ 23
  let sign := bits.toNat / 2 ^ 31 * 2 ^ 63
  let magnitude :=
    if exponent = 255 then 2047 * 2 ^ 52 + fraction * 2 ^ 29
    else if exponent ≠ 0 then (exponent + 896) * 2 ^ 52 + fraction * 2 ^ 29
    else if fraction = 0 then 0
    else (Nat.log2 fraction + 873) * 2 ^ 52 + fraction * 2 ^ (52 - Nat.log2 fraction)
  ⟨BitVec.ofNat 64 (sign + magnitude)⟩

end Binary64
