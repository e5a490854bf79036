/-
  Powers of two and of ten, compared by their exponents.
-/
import Mathlib.Algebra.Group.Nat.Defs
import Stepper.Number.Power

namespace Stepper.Number

theorem pow2_add (j k : Nat) : pow2 (j + k) = pow2 j * pow2 k := Nat.pow_add 2 j k

theorem pow10_add (j k : Nat) : pow10 (j + k) = pow10 j * pow10 k := Nat.pow_add 10 j k

theorem pow2_le {j k : Nat} (h : j ≤ k) : pow2 j ≤ pow2 k := Nat.pow_le_pow_right (by decide) h

theorem pow10_le {j k : Nat} (h : j ≤ k) : pow10 j ≤ pow10 k := Nat.pow_le_pow_right (by decide) h

/-- Where `s` factors `x` make up for no more than `r` factors `y`, so do as many times more. -/
theorem pow_le_pow_of_ratio {x y r s a b : Nat} (base : x ^ s ≤ y ^ r) (ratio : r * a ≤ s * b)
    (nonzero : s ≠ 0) (positive : 0 < y) : x ^ a ≤ y ^ b := by
  refine (Nat.pow_le_pow_iff_left nonzero).1 ?_
  calc (x ^ a) ^ s = (x ^ s) ^ a := by rw [← Nat.pow_mul, ← Nat.pow_mul, Nat.mul_comm]
    _ ≤ (y ^ r) ^ a := Nat.pow_le_pow_left base a
    _ = y ^ (r * a) := (Nat.pow_mul y r a).symm
    _ ≤ y ^ (s * b) := Nat.pow_le_pow_right positive ratio
    _ = (y ^ b) ^ s := by rw [← Nat.pow_mul, Nat.mul_comm]

theorem pow10_le_pow2 {a b : Nat} (ratio : 10 * a ≤ 3 * b) : pow10 a ≤ pow2 b := by
  have base : 10 ^ 3 ≤ 2 ^ 10 := by decide
  exact pow_le_pow_of_ratio base ratio (by decide) (by decide)

theorem pow2_le_pow10 {a b : Nat} (ratio : 10 * a ≤ 33 * b) : pow2 a ≤ pow10 b := by
  have base : 2 ^ 33 ≤ 10 ^ 10 := by decide
  exact pow_le_pow_of_ratio base ratio (by decide) (by decide)

end Stepper.Number
