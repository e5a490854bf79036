/-
  Numbers as rows of digits.
-/
import Stepper.Number.Notation

namespace Stepper.Number

variable {n : Nat}

theorem digitsOf_ne_nil (n : Nat) : digitsOf n ≠ [] := Nat.toDigits_ne_nil

theorem isDigit_of_mem_digitsOf {c : Char} (mem : c ∈ digitsOf n) : c.isDigit = true :=
  Nat.isDigit_of_mem_toDigits (by decide) (by decide) mem

/-- A number is read back from its digits. -/
theorem naturalOf_digitsOf (n : Nat) : naturalOf (digitsOf n) = n :=
  Nat.ofDigitChars_toDigits (by decide) (by decide)

/-- Zeros in front do not count. -/
theorem naturalOf_zeros_append (n : Nat) (digits : List Char) :
    naturalOf (zeros n ++ digits) = naturalOf digits := by
  have zero : naturalOf (zeros n) = 0 := Nat.ofDigitChars_replicate_zero
  rw [naturalOf] at zero
  rw [naturalOf, List.foldl_append, zero]
  rfl

theorem naturalOf_append_zeros (digits : List Char) (n : Nat) :
    naturalOf (digits ++ zeros n) = naturalOf digits * pow10 n := by
  rw [naturalOf, List.foldl_append, Nat.mul_comm]
  exact Nat.ofDigitChars_replicate_zero

/-- Only zero is written with a zero in front. -/
theorem head?_digitsOf (positive : 0 < n) : (digitsOf n).head? ≠ some '0' := by
  induction n using Nat.strongRecOn with
  | _ n ih =>
    by_cases small : n < 10
    · have digit : ∀ n < 10, 0 < n → [n.digitChar].head? ≠ some '0' := by decide
      rw [digitsOf, Nat.toDigits_of_lt_base small]
      exact digit n small positive
    · rw [digitsOf, Nat.toDigits_of_base_le (by decide) (Nat.le_of_not_lt small)]
      obtain ⟨d, ds, digits⟩ := List.exists_cons_of_ne_nil (digitsOf_ne_nil (n / 10))
      have shorter := ih (n / 10) (by omega) (by omega)
      rw [digitsOf] at digits shorter
      rw [digits] at shorter ⊢
      exact shorter

end Stepper.Number
