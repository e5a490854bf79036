/-
  Arithmetic on integers.

  `mod` gives the remainder that has the sign of the divisor (`Floored`), but
  the least integer modulo −1 overflows, though its remainder is zero
  (`call_mod`).

  A division by several integers goes on with whole quotients (`Exact`) up to
  the first divisor that leaves a remainder.  There it turns to floats and
  fails no more, so that a later zero is no error (`call_div_of_zero`).
-/
import Stepper.Proofs.Eval.Builtin

namespace Stepper.Eval

open Stepper.Number (fit?_toInt)

theorem checked_toInt (n : Int64) : checked n.toInt = .ok (.int n) := by
  rw [checked, fit?_toInt]

/-! ## Remainders -/

/-- The number leaves the remainder `r`, between zero and the divisor. -/
structure Floored (a b r : Int) : Prop where
  divides : b ∣ a - r
  range : 0 < b ∧ 0 ≤ r ∧ r < b ∨ b < 0 ∧ b < r ∧ r ≤ 0

theorem Floored.unique {a b r s : Int} (h : Floored a b r) (h' : Floored a b s) : s = r := by
  have divides : b ∣ s - r := by
    have both := Int.dvd_sub h.divides h'.divides
    rwa [show a - r - (a - s) = s - r by omega] at both
  have close : (s - r).natAbs < b.natAbs := by
    have := h.range
    have := h'.range
    omega
  have zero := Int.eq_zero_of_dvd_of_natAbs_lt_natAbs divides close
  omega

/-- The remainder of the division towards zero is corrected by the divisor. -/
theorem floored_of_tmod {a b : Int} (nonzero : b ≠ 0) :
    Floored a b (if a.tmod b ≠ 0 ∧ (a.tmod b < 0) ≠ (b < 0) then a.tmod b + b else a.tmod b) := by
  have divides : b ∣ a - a.tmod b := Int.dvd_self_sub_tmod
  have small : (a.tmod b).natAbs < b.natAbs := by
    rw [Int.natAbs_tmod]
    exact Nat.mod_lt _ (by omega)
  split
  · rename_i other
    obtain ⟨remains, sign⟩ := other
    rw [ne_eq, eq_iff_iff] at sign
    refine ⟨?_, by omega⟩
    rw [show a - (a.tmod b + b) = a - a.tmod b - b by omega]
    exact Int.dvd_sub divides (Int.dvd_refl b)
  · rename_i same
    rw [ne_eq, ne_eq, eq_iff_iff] at same
    exact ⟨divides, by omega⟩

/-- A remainder fits where the divisor does. -/
theorem Floored.exists_int {a r : Int} {b : Int64} (h : Floored a b.toInt r) :
    ∃ n : Int64, n.toInt = r := by
  have low := b.minValue_le_toInt
  have high := b.toInt_le
  have range := h.range
  refine ⟨Int64.ofInt r, Number.toInt_ofInt ?_ ?_⟩
  · rw [Int64.toInt_minValue] at low ⊢
    omega
  · rw [Int64.toInt_maxValue] at high ⊢
    omega

namespace Builtin

theorem modulo_zero (a : Int64) : modulo a 0 = .error .divisionByZero := by
  rw [modulo, if_pos rfl]

theorem modulo_minValue : modulo Int64.minValue (-1) = .error .overflow := rfl

theorem modulo_of_regular {a b : Int64} (nonzero : b ≠ 0)
    (regular : ¬ (a = Int64.minValue ∧ b = -1)) :
    ∃ r, modulo a b = .ok (.int r) ∧ Floored a.toInt b.toInt r.toInt := by
  have nonzero' : b.toInt ≠ 0 := by simpa [← Int64.toInt_inj] using nonzero
  have regular' : ¬ (a = Int64.minValue ∧ b.toInt = -1) := by
    simpa [← Int64.toInt_inj] using regular
  obtain ⟨r, value⟩ := (floored_of_tmod nonzero').exists_int (a := a.toInt)
  refine ⟨r, ?_, value ▸ floored_of_tmod nonzero'⟩
  rw [modulo, if_neg nonzero, if_neg regular', ← checked_toInt, value]

/-- The remainder of two integers.  All but one of those that exist are given. -/
theorem call_mod (a b : Int64) :
    (Builtin.mod.call [.int a, .int b] = .error .divisionByZero ↔ b = 0) ∧
    (Builtin.mod.call [.int a, .int b] = .error .overflow ↔ a = Int64.minValue ∧ b = -1) ∧
    (b ≠ 0 → ¬ (a = Int64.minValue ∧ b = -1) →
      ∃ r : Int64, Builtin.mod.call [.int a, .int b] = .ok (.int r) ∧
        Floored a.toInt b.toInt r.toInt ∧ ∀ s, Floored a.toInt b.toInt s → s = r.toInt) := by
  have call : Builtin.mod.call [.int a, .int b] = modulo a b := rfl
  rw [call]
  by_cases zero : b = 0
  · subst zero
    rw [modulo_zero]
    refine ⟨by simp, ?_, fun nonzero => absurd rfl nonzero⟩
    constructor
    · nofun
    · rintro ⟨-, ⟨⟩⟩
  by_cases extreme : a = Int64.minValue ∧ b = -1
  · obtain ⟨rfl, rfl⟩ := extreme
    rw [modulo_minValue]
    exact ⟨by simp, by simp, fun _ regular => absurd ⟨rfl, rfl⟩ regular⟩
  obtain ⟨r, result, floored⟩ := modulo_of_regular zero extreme
  rw [result]
  exact ⟨by simp [zero], by simpa using extreme,
    fun _ _ => ⟨r, rfl, floored, fun s other => floored.unique other⟩⟩

theorem call_mod_samples :
    Builtin.mod.call [.int 7, .int 0] = .error .divisionByZero ∧
    ∃ r : Int64, Builtin.mod.call [.int (-7), .int 3] = .ok (.int r) ∧ Floored (-7) 3 r.toInt := by
  obtain ⟨zero, -, -⟩ := call_mod 7 0
  obtain ⟨-, -, regular⟩ := call_mod (-7) 3
  obtain ⟨r, result, floored, -⟩ := regular (by decide) (by decide)
  exact ⟨zero.2 rfl, r, result, floored⟩

/-- The least integer is divisible by −1, but their remainder is an error. -/
theorem minValue_overflows :
    Builtin.mod.call [.int Int64.minValue, .int (-1)] = .error .overflow ∧
    Floored Int64.minValue.toInt (-1) 0 :=
  ⟨rfl, ⟨by decide, .inr (by decide)⟩⟩

end Builtin

/-! ## Quotients -/

/-- Divided by one number after the other the integer leaves no remainder, and
    gives `q` in the end. -/
inductive Exact : Int64 → List Int64 → Int64 → Prop
  | nil (a : Int64) : Exact a [] a
  | cons {a b q r bs} (nonzero : b ≠ 0) (product : q.toInt * b.toInt = a.toInt) (rest : Exact q bs r) :
    Exact a (b :: bs) r

/-- Without a remainder so far, `q` is to be divided by `b`. -/
def Meets (a : Int64) (bs : List Int64) (q b : Int64) : Prop :=
  ∃ before after, bs = before ++ b :: after ∧ Exact a before q

/-- Some division leaves a remainder, and none before it does. -/
def Remains (a : Int64) (bs : List Int64) : Prop :=
  ∃ q b, Meets a bs q b ∧ b ≠ 0 ∧ ¬ b.toInt ∣ q.toInt

variable {a b q : Int64} {bs : List Int64}

theorem Exact.notMem (h : Exact a bs q) : 0 ∉ bs := by
  induction h with
  | nil => exact List.not_mem_nil
  | cons nonzero _ _ ih => simp [ih, Ne.symm nonzero]

theorem Meets.here : Meets a (b :: bs) a b := ⟨[], bs, rfl, .nil a⟩

theorem Meets.later {c r : Int64} (h : Meets q bs r c) (nonzero : b ≠ 0)
    (product : q.toInt * b.toInt = a.toInt) : Meets a (b :: bs) r c := by
  obtain ⟨before, after, rfl, rest⟩ := h
  exact ⟨b :: before, after, rfl, .cons nonzero product rest⟩

/-- A quotient without remainder is an integer, but for one. -/
theorem exists_quotient (nonzero : b ≠ 0) (regular : ¬ (a = Int64.minValue ∧ b = -1))
    (divides : b.toInt ∣ a.toInt) : ∃ q : Int64, q.toInt * b.toInt = a.toInt := by
  obtain ⟨c, product⟩ := divides
  have nonzero' : b.toInt ≠ 0 := by simpa [← Int64.toInt_inj] using nonzero
  have regular' : ¬ (a.toInt = Int64.minValue.toInt ∧ b.toInt = -1) := by
    simpa [← Int64.toInt_inj] using regular
  have low := a.minValue_le_toInt
  have high := a.toInt_le
  rw [Int64.toInt_minValue] at low regular'
  rw [Int64.toInt_maxValue] at high
  have size : a.toInt.natAbs = b.toInt.natAbs * c.natAbs := by rw [product, Int.natAbs_mul]
  have fits : -2 ^ 63 ≤ c ∧ c ≤ 2 ^ 63 - 1 := by
    by_cases unit : b.toInt = 1 ∨ b.toInt = -1
    · rcases unit with unit | unit <;> rw [unit] at product regular' <;> omega
    · have half : 2 * c.natAbs ≤ b.toInt.natAbs * c.natAbs := Nat.mul_le_mul_right _ (by omega)
      omega
  refine ⟨Int64.ofInt c, ?_⟩
  rw [Number.toInt_ofInt, product, Int.mul_comm]
  · rw [Int64.toInt_minValue]
    exact fits.1
  · rw [Int64.toInt_maxValue]
    exact fits.2

/-- The divisions leave no remainder, or there is a first one that cannot be
    carried out with integers. -/
theorem exact_or_meets (a : Int64) (bs : List Int64) :
    (∃ q, Exact a bs q) ∨ (∃ q, Meets a bs q 0) ∨ Meets a bs Int64.minValue (-1) ∨
      Remains a bs := by
  induction bs generalizing a with
  | nil => exact .inl ⟨a, .nil a⟩
  | cons b bs ih =>
    by_cases zero : b = 0
    · subst zero
      exact .inr (.inl ⟨a, .here⟩)
    by_cases extreme : a = Int64.minValue ∧ b = -1
    · obtain ⟨rfl, rfl⟩ := extreme
      exact .inr (.inr (.inl .here))
    by_cases divides : b.toInt ∣ a.toInt
    · obtain ⟨q, product⟩ := exists_quotient zero extreme divides
      rcases ih q with ⟨r, rest⟩ | ⟨r, meets⟩ | meets | ⟨r, c, meets, remains⟩
      · exact .inl ⟨r, .cons zero product rest⟩
      · exact .inr (.inl ⟨r, meets.later zero product⟩)
      · exact .inr (.inr (.inl (meets.later zero product)))
      · exact .inr (.inr (.inr ⟨r, c, meets.later zero product, remains⟩))
    · exact .inr (.inr (.inr ⟨a, b, .here, zero, divides⟩))

namespace Builtin

theorem divide_zero (a : Int64) : divide a 0 = .error .divisionByZero := by
  rw [divide, if_pos rfl]

theorem divide_minValue : divide Int64.minValue (-1) = .error .overflow := rfl

theorem divide_of_exact (nonzero : b ≠ 0) (product : q.toInt * b.toInt = a.toInt) :
    divide a b = .ok (.int q) := by
  have nonzero' : b.toInt ≠ 0 := by simpa [← Int64.toInt_inj] using nonzero
  have remainder : a.toInt.tmod b.toInt = 0 := by rw [← product, Int.mul_tmod_left]
  have quotient : a.toInt.tdiv b.toInt = q.toInt := by rw [← product, Int.mul_tdiv_cancel _ nonzero']
  rw [divide, if_neg nonzero, if_pos remainder, quotient, checked_toInt]

theorem divide_of_remainder (nonzero : b ≠ 0) (remains : ¬ b.toInt ∣ a.toInt) :
    ∃ x, divide a b = .ok (.float x) := by
  rw [Int.dvd_iff_tmod_eq_zero] at remains
  exact ⟨_, by rw [divide, if_neg nonzero, if_neg remains]⟩

/-- Division of the integers, from the left. -/
def quotients (a : Int64) (bs : List Int64) : Except Error Value :=
  Builtin.div.chain .div (.int a) (bs.map .int)

theorem quotients_of_exact (h : Exact a bs q) (rest : List Int64) :
    quotients a (bs ++ rest) = quotients q rest := by
  induction h with
  | nil => rfl
  | cons nonzero product _ ih =>
    rw [← ih]
    exact foldlM_cons_ok (divide_of_exact nonzero product)

/-- Floats are divided by anything. -/
theorem exists_chain_float (x : Float) (bs : List Int64) :
    ∃ y, Builtin.div.chain .div (.float x) (bs.map .int) = .ok (.float y) := by
  induction bs generalizing x with
  | nil => exact ⟨x, rfl⟩
  | cons b bs ih => exact ih _

theorem quotients_of_meets (h : Meets a bs q b) :
    ∃ after, quotients a bs = quotients q (b :: after) := by
  obtain ⟨before, after, rfl, whole⟩ := h
  exact ⟨after, quotients_of_exact whole (b :: after)⟩

theorem quotients_of_zero (h : Meets a bs q 0) : quotients a bs = .error .divisionByZero := by
  obtain ⟨after, same⟩ := quotients_of_meets h
  rw [same]
  exact foldlM_cons_error (divide_zero q)

theorem quotients_of_minValue (h : Meets a bs Int64.minValue (-1)) :
    quotients a bs = .error .overflow := by
  obtain ⟨after, same⟩ := quotients_of_meets h
  rw [same]
  exact foldlM_cons_error divide_minValue

theorem quotients_of_remains (h : Remains a bs) : ∃ x, quotients a bs = .ok (.float x) := by
  obtain ⟨q, b, meets, nonzero, remains⟩ := h
  obtain ⟨after, same⟩ := quotients_of_meets meets
  obtain ⟨x, first⟩ := divide_of_remainder nonzero remains
  obtain ⟨y, others⟩ := exists_chain_float x after
  exact ⟨y, same.trans ((foldlM_cons_ok first).trans others)⟩

/-- Division by several integers of which one is zero.  It fails unless some
    division before leaves a remainder; then it gives a float. -/
theorem call_div_of_zero {bs : List Int64} (a : Int64) (zero : 0 ∈ bs) :
    (¬ Remains a bs ↔ Builtin.div.call ((a :: bs).map .int) = .error .divisionByZero ∨
      Builtin.div.call ((a :: bs).map .int) = .error .overflow) ∧
    (Remains a bs ↔ ∃ x, Builtin.div.call ((a :: bs).map .int) = .ok (.float x)) ∧
    (Builtin.div.call ((a :: bs).map .int) = .error .divisionByZero ↔ ∃ q, Meets a bs q 0) ∧
    (Builtin.div.call ((a :: bs).map .int) = .error .overflow ↔
      Meets a bs Int64.minValue (-1)) := by
  have call : Builtin.div.call ((a :: bs).map .int) = quotients a bs := by
    obtain ⟨b, bs, rfl⟩ := List.exists_cons_of_ne_nil (List.ne_nil_of_mem zero)
    rfl
  have ends : (∃ q, Meets a bs q 0) ∨ Meets a bs Int64.minValue (-1) ∨ Remains a bs :=
    (exact_or_meets a bs).resolve_left fun ⟨_, whole⟩ => whole.notMem zero
  have onZero : (∃ q, Meets a bs q 0) → quotients a bs = .error .divisionByZero :=
    fun ⟨_, meets⟩ => quotients_of_zero meets
  rw [call]
  refine ⟨⟨?_, ?_⟩, ⟨quotients_of_remains, ?_⟩, ⟨?_, onZero⟩, ⟨?_, quotients_of_minValue⟩⟩
  · intro whole
    rcases ends with meets | meets | remains
    · exact .inl (onZero meets)
    · exact .inr (quotients_of_minValue meets)
    · exact absurd remains whole
  · intro failed remains
    obtain ⟨x, result⟩ := quotients_of_remains remains
    rw [result] at failed
    rcases failed with ⟨⟨⟩⟩ | ⟨⟨⟩⟩
  · rintro ⟨x, result⟩
    rcases ends with meets | meets | remains
    · cases result.symm.trans (onZero meets)
    · cases result.symm.trans (quotients_of_minValue meets)
    · exact remains
  · intro failed
    rcases ends with meets | meets | remains
    · exact meets
    · cases failed.symm.trans (quotients_of_minValue meets)
    · obtain ⟨x, result⟩ := quotients_of_remains remains
      cases failed.symm.trans result
  · intro failed
    rcases ends with meets | meets | remains
    · cases failed.symm.trans (onZero meets)
    · exact meets
    · obtain ⟨x, result⟩ := quotients_of_remains remains
      cases failed.symm.trans result

theorem call_div_of_zero_exact :
    (0 : Int64) ∈ ([3, 0, 5] : List Int64) ∧
    Builtin.div.call ([6, 3, 0, 5].map .int) = .error .divisionByZero := by
  have zero : (0 : Int64) ∈ ([3, 0, 5] : List Int64) := by decide
  obtain ⟨-, -, byZero, -⟩ := call_div_of_zero 6 zero
  have quotient : Exact 6 [3] 2 := .cons (by decide) (by decide) (.nil 2)
  exact ⟨zero, byZero.2 ⟨2, [3], [5], rfl, quotient⟩⟩

/-- A remainder before the zero makes the quotient infinite. -/
theorem half_by_zero_infinite :
    Builtin.div.call [.int 1, .int 2, .int 0] =
      .ok (.float (Number.Binary64.ofBits false Number.Binary64.infinityBits)) := by
  have value : (Numeral.int 1).toFloat / (Numeral.int 2).toFloat / (Numeral.int 0).toFloat =
      Number.Binary64.ofBits false Number.Binary64.infinityBits := by decide +kernel
  rw [← value]
  rfl

end Builtin

end Stepper.Eval
