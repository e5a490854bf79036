/-
  Decimals as floats.

  A decimal in the interval of a float is read as that float
  (`floatOfDecimal_of_near`): the exponents that the reader cuts short are out
  of the range of the floats.
-/
import Stepper.Proofs.Number.Digits
import Stepper.Proofs.Number.Rounding

namespace Stepper.Number

/-! ## Numbers of digits -/

variable {n : Nat}

theorem length_digitsOf_pos (n : Nat) : 0 < (digitsOf n).length :=
  List.length_pos_of_ne_nil (digitsOf_ne_nil n)

theorem lt_pow10_length (n : Nat) : n < pow10 (digitsOf n).length :=
  (Nat.length_toDigits_le_iff (by decide) (length_digitsOf_pos n)).1 (Nat.le_refl _)

theorem pow10_le_of_length (positive : 0 < n) {j : Nat} (h : j < (digitsOf n).length) :
    pow10 j ≤ n := by
  rcases Nat.eq_zero_or_pos j with rfl | nonzero
  · exact positive
  · refine Nat.le_of_not_lt fun small => ?_
    have short := (Nat.length_toDigits_le_iff (by decide) nonzero).2 small
    rw [digitsOf] at h
    omega

/-! ## Decimals -/

namespace Decimal

/-- The decimal as a quotient. -/
def num (d : Decimal) : Nat :=
  match d.exponent with
  | .ofNat e => d.digits * pow10 e
  | .negSucc _ => d.digits

def den (d : Decimal) : Nat :=
  match d.exponent with
  | .ofNat _ => 1
  | .negSucc e => pow10 (e + 1)

theorem num_ofNat (digits e : Nat) : num ⟨digits, .ofNat e⟩ = digits * pow10 e := rfl

theorem den_ofNat (digits e : Nat) : den ⟨digits, .ofNat e⟩ = 1 := rfl

theorem num_negSucc (digits e : Nat) : num ⟨digits, .negSucc e⟩ = digits := rfl

theorem den_negSucc (digits e : Nat) : den ⟨digits, .negSucc e⟩ = pow10 (e + 1) := rfl

/-- The decimal lies in the interval of the float with magnitude `m · 2^k`. -/
def Near (d : Decimal) (m k : Nat) : Prop := Number.Near d.num d.den m k

/-- The place of the first digit. -/
def places (d : Decimal) : Int := (digitsOf d.digits).length + d.exponent

variable {d : Decimal} {m k : Nat}

theorem den_pos (d : Decimal) : 0 < d.den := by
  unfold den
  split
  · exact Nat.one_pos
  · exact pow10_pos _

theorem le_num_of_places (positive : 0 < d.digits) (h : (n : Int) < d.places) :
    pow10 n * d.den ≤ d.num := by
  obtain ⟨digits, exponent⟩ := d
  have first := length_digitsOf_pos digits
  cases exponent with
  | ofNat e =>
    have short : n - e < (digitsOf digits).length := by
      simp only [places, Int.ofNat_eq_natCast] at h
      omega
    calc pow10 n * 1 = pow10 n := Nat.mul_one _
      _ ≤ pow10 (n - e + e) := pow10_le (by omega)
      _ = pow10 (n - e) * pow10 e := pow10_add _ e
      _ ≤ digits * pow10 e := Nat.mul_le_mul_right _ (pow10_le_of_length positive short)
  | negSucc e =>
    have short : n + (e + 1) < (digitsOf digits).length := by
      simp only [places] at h
      omega
    calc pow10 n * pow10 (e + 1) = pow10 (n + (e + 1)) := (pow10_add n (e + 1)).symm
      _ ≤ digits := pow10_le_of_length positive short

theorem num_lt_of_places (h : d.places ≤ -(n : Int)) : d.num * pow10 n < d.den := by
  obtain ⟨digits, exponent⟩ := d
  have first := length_digitsOf_pos digits
  cases exponent with
  | ofNat e =>
    simp only [places, Int.ofNat_eq_natCast] at h
    omega
  | negSucc e =>
    have short : (digitsOf digits).length + n ≤ e + 1 := by
      simp only [places] at h
      omega
    calc digits * pow10 n < pow10 (digitsOf digits).length * pow10 n :=
          Nat.mul_lt_mul_of_pos_right (lt_pow10_length digits) (pow10_pos n)
      _ = pow10 ((digitsOf digits).length + n) := (pow10_add _ n).symm
      _ ≤ pow10 (e + 1) := pow10_le short

end Decimal

/-! ## The range of the floats -/

variable {num den m k : Nat} {negative : Bool} {x : Float}

theorem Nearest.le_num (h : Nearest num den m) (positive : 0 < m) : den ≤ 2 * num := by
  have once : 1 * den ≤ m * den := Nat.mul_le_mul_right den positive
  have := h.low
  omega

/-- A quotient as large as this is nearer to infinity. -/
theorem Near.num_lt (h : Near num den m k) (positive : 0 < den) (magnitude : Magnitude m k) :
    num < pow2 1024 * den := by
  have high := (h.nearest positive).high
  have step : 0 < den * pow2 k := Nat.mul_pos positive (pow2_pos k)
  have largest : den * pow2 k ≤ den * pow2 2045 :=
    Nat.mul_le_mul_left den (pow2_le magnitude.range)
  have bound : (m + 1) * (den * pow2 k) ≤ pow2 53 * (den * pow2 2045) :=
    Nat.mul_le_mul magnitude.below largest
  rw [Nat.succ_mul m] at bound
  have bits : pow2 53 * pow2 2045 = pow2 1024 * pow2 1074 := by
    rw [← pow2_add, ← pow2_add]
  have units : pow2 53 * (den * pow2 2045) = pow2 1024 * den * pow2 1074 := by
    calc pow2 53 * (den * pow2 2045) = pow2 53 * pow2 2045 * den := by ring
      _ = pow2 1024 * den * pow2 1074 := by rw [bits]; ring
  exact Nat.lt_of_mul_lt_mul_right (a := pow2 1074) (by omega)

/-- A quotient smaller than this is nearer to zero. -/
theorem Near.den_le (h : Near num den m k) (positive : 0 < den) (nonzero : 0 < m) :
    den ≤ pow2 1075 * num := by
  have step : den * 1 ≤ den * pow2 k := Nat.mul_le_mul_left den (pow2_pos k)
  have units := (h.nearest positive).le_num nonzero
  have double : pow2 1075 * num = 2 * (num * pow2 1074) := by
    rw [pow2_succ, Nat.mul_comm _ num, ← Nat.mul_assoc, Nat.mul_comm 2]
  omega

theorem Near.num_pos (h : Near num den m k) (positive : 0 < den) (nonzero : 0 < m) : 0 < num :=
  Nat.pos_of_mul_pos_left (positive.trans_le (h.den_le positive nonzero))

/-- The float nearest to an integer in its interval. -/
theorem ofInt_of_near (parts : Binary64.parts x = .finite negative m k) (nonzero : 0 < m)
    (near : Near n 1 m k) : Binary64.ofInt (if negative then -(n : Int) else n) = x := by
  have positive : 0 < n := near.num_pos Nat.one_pos nonzero
  have sign : decide ((if negative then -(n : Int) else n) < 0) = negative := by
    cases negative <;> simp [positive]
  have size : (if negative then -(n : Int) else n).natAbs = n := by
    cases negative <;> simp
  rw [Binary64.ofInt, sign, size, ofRatio_of_near Nat.one_pos parts near]

namespace Decimal

variable {d : Decimal}

theorem floatOfDecimal_of_range (positive : 0 < d.digits) (high : d.places ≤ 310)
    (low : -330 ≤ d.places) :
    floatOfDecimal negative d = Binary64.ofRatio negative d.num d.den := by
  rw [places] at high low
  rw [floatOfDecimal, if_neg (by omega), if_neg (by omega), if_neg (by omega)]
  obtain ⟨digits, exponent⟩ := d
  cases exponent with
  | ofNat e => rw [num_ofNat, den_ofNat]
  | negSucc e => rw [num_negSucc, den_negSucc]

theorem digits_pos_of_num_pos (positive : 0 < d.num) : 0 < d.digits := by
  unfold num at positive
  split at positive
  · exact Nat.pos_of_mul_pos_right positive
  · exact positive

/-- Decimals with the first digit further to the left are nearer to infinity. -/
theorem Near.places_le (near : d.Near m k) (magnitude : Magnitude m k) (digits : 0 < d.digits) :
    d.places ≤ 310 := by
  refine Int.not_lt.1 fun far => ?_
  have small := Number.Near.num_lt near d.den_pos magnitude
  have value := le_num_of_places (n := 310) digits far
  have range : pow2 1024 ≤ pow10 310 := by decide +kernel
  have := Nat.mul_le_mul_right d.den range
  omega

/-- Decimals with the first digit further to the right are nearer to zero. -/
theorem Near.le_places (near : d.Near m k) (nonzero : 0 < m) : -330 ≤ d.places := by
  refine Int.not_lt.1 fun far => ?_
  have large := Number.Near.den_le near d.den_pos nonzero
  have value := num_lt_of_places (d := d) (n := 331) (by omega)
  have range : pow2 1075 ≤ pow10 331 := by decide +kernel
  have := Nat.mul_le_mul_left d.num range
  rw [Nat.mul_comm] at large
  omega

/-- A decimal in the interval of a float is read as that float. -/
theorem floatOfDecimal_of_near (parts : Binary64.parts x = .finite negative m k) (nonzero : 0 < m)
    (near : d.Near m k) : floatOfDecimal negative d = x := by
  have digits := digits_pos_of_num_pos (Number.Near.num_pos near d.den_pos nonzero)
  have high := near.places_le (Binary64.magnitude_of_parts parts) digits
  have low := near.le_places nonzero
  rw [floatOfDecimal_of_range digits high low, ofRatio_of_near d.den_pos parts near]

/-- Zero is read whatever its exponent. -/
theorem floatOfDecimal_zero (parts : Binary64.parts x = .finite negative 0 k) (e : Int) :
    floatOfDecimal negative ⟨0, e⟩ = x := by
  have zero : k = 0 := by
    refine Nat.eq_zero_of_not_pos fun normal => ?_
    have := (Binary64.magnitude_of_parts parts).full normal
    have := pow2_pos 52
    omega
  have value := Binary64.ofBits_of_parts parts
  rw [zero, Nat.zero_mul] at value
  exact value

end Decimal

end Stepper.Number
