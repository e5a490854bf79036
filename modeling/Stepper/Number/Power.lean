/-
  Powers of two and of ten.

  They stand for units of floats and for places of decimals.
-/
namespace Stepper.Number

/-- The `k`-th power of two. -/
def pow2 (k : Nat) : Nat := Nat.pow 2 k

/-- The `k`-th power of ten. -/
def pow10 (k : Nat) : Nat := Nat.pow 10 k

theorem pow2_succ (k : Nat) : pow2 (k + 1) = pow2 k * 2 := rfl

theorem pow2_pos (k : Nat) : 0 < pow2 k := Nat.pow_pos (by decide)

theorem pow10_pos (k : Nat) : 0 < pow10 k := Nat.pow_pos (by decide)

end Stepper.Number
