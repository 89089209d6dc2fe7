import Mathlib.Tactic.NormNum
import Mathlib.Algebra.Order.Ring.Nat
import StratumBridge.Job.Difficulty

/-! # Compact difficulty bits

Compact bits hold an exponent byte and three mantissa bytes, of which the node
reads the first bit as a sign. The bridge and the node decode them separately:
they shift the mantissa alike, and differ in what they do with a sign bit and
with a shift past 256 bits.
-/

namespace StratumBridge.CompactBits

/-- The mantissa, shifted right under a small exponent. -/
def significand (bits : Nat) : Nat := (bits &&& 0xFFFFFF) >>> (8 * (3 - bits >>> 24))

/-- The left shift under a large exponent. -/
def shift (bits : Nat) : Nat := 8 * (bits >>> 24 - 3)

/-- The node's decoding: a mantissa with its sign bit set counts as zero, and the shift
is made in 256 bits. -/
def nodeTarget (bits : Nat) : Nat :=
  if 0x7FFFFF < significand bits then 0 else significand bits <<< shift bits % 2 ^ 256

/-- The sign bit is clear and the shifted mantissa stays within 256 bits. -/
def Representable (bits : Nat) : Prop :=
  significand bits ≤ 0x7FFFFF ∧ significand bits < 2 ^ (256 - shift bits)

instance (bits : Nat) : Decidable (Representable bits) := inferInstanceAs (Decidable (_ ∧ _))

theorem calculateTarget_eq (bits : Nat) :
    calculateTarget bits = significand bits * 2 ^ shift bits := by
  unfold calculateTarget significand shift
  by_cases small : bits >>> 24 ≤ 3
  · have unshifted : 8 * (bits >>> 24 - 3) = 0 := by omega
    simp only [small, ↓reduceIte, unshifted, pow_zero, mul_one]
  · have unshifted : 8 * (3 - bits >>> 24) = 0 := by omega
    simp only [small, ↓reduceIte, unshifted, Nat.shiftRight_zero, Nat.shiftLeft_eq]

theorem nodeTarget_eq (bits : Nat) :
    nodeTarget bits =
      if 0x7FFFFF < significand bits then 0 else calculateTarget bits % 2 ^ 256 := by
  rw [calculateTarget_eq]
  simp only [nodeTarget, Nat.shiftLeft_eq]

/-- The shift stays within 256 bits exactly when the mantissa leaves it the room. -/
theorem calculateTarget_lt_iff (bits : Nat) :
    calculateTarget bits < 2 ^ 256 ↔ significand bits < 2 ^ (256 - shift bits) := by
  rw [calculateTarget_eq]
  by_cases within : shift bits ≤ 256
  · have whole : (2 : Nat) ^ 256 = 2 ^ (256 - shift bits) * 2 ^ shift bits := by
      rw [← pow_add, Nat.sub_add_cancel within]
    rw [whole]
    exact Nat.mul_lt_mul_right (by positivity)
  · have none : 256 - shift bits = 0 := by omega
    have large : 2 ^ 256 ≤ 2 ^ shift bits := Nat.pow_le_pow_right (by omega) (by omega)
    rw [none, pow_zero, Nat.lt_one_iff]
    constructor
    · intro below
      by_contra positive
      have grows := Nat.le_mul_of_pos_left (2 ^ shift bits) (Nat.pos_of_ne_zero positive)
      omega
    · intro zero
      rw [zero, zero_mul]
      positivity

theorem representable_iff (bits : Nat) :
    Representable bits ↔ significand bits ≤ 0x7FFFFF ∧ calculateTarget bits < 2 ^ 256 := by
  rw [calculateTarget_lt_iff]
  rfl

theorem calculateTarget_eq_nodeTarget {bits : Nat} (fits : Representable bits) :
    calculateTarget bits = nodeTarget bits := by
  obtain ⟨unsigned, within⟩ := (representable_iff bits).mp fits
  rw [nodeTarget_eq, if_neg (not_lt.mpr unsigned), Nat.mod_eq_of_lt within]

/-- Where the decodings differ, some 256-bit value lies between them. -/
theorem exists_between {bits : Nat} (loses : ¬ Representable bits) :
    ∃ value < 2 ^ 256, nodeTarget bits < value ∧ value ≤ calculateTarget bits := by
  by_cases unsigned : significand bits ≤ 0x7FFFFF
  · have past : 2 ^ 256 ≤ calculateTarget bits := by
      by_contra below
      exact loses ((representable_iff bits).mpr ⟨unsigned, not_le.mp below⟩)
    have shifted : shift bits ≠ 0 := by
      intro unshifted
      rw [calculateTarget_eq, unshifted, pow_zero, mul_one] at past
      omega
    obtain ⟨half, even⟩ : 2 ∣ calculateTarget bits := by
      rw [calculateTarget_eq]
      exact Dvd.dvd.mul_left (dvd_pow_self 2 shifted) _
    refine ⟨2 ^ 256 - 1, by omega, ?_, by omega⟩
    rw [nodeTarget_eq, if_neg (not_lt.mpr unsigned)]
    omega
  · have zero : nodeTarget bits = 0 := by
      rw [nodeTarget_eq, if_pos (not_le.mp unsigned)]
    have positive : significand bits ≤ calculateTarget bits := by
      rw [calculateTarget_eq]
      exact Nat.le_mul_of_pos_right _ (by positivity)
    exact ⟨1, by omega, by omega, by omega⟩

theorem agrees_iff (bits : Nat) : calculateTarget bits = nodeTarget bits ↔ Representable bits := by
  constructor
  · intro agree
    by_contra loses
    obtain ⟨value, -, above, below⟩ := exists_between loses
    omega
  · exact calculateTarget_eq_nodeTarget

end StratumBridge.CompactBits
