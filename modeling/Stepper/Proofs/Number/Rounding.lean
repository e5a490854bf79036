/-
  Rounding to the nearest float.

  A quotient that lies in the interval of a float (`Near`) is rounded to that
  float (`ofRatio_of_near`).
-/
import Stepper.Number.Shortest
import Stepper.Proofs.Number.Binary64

namespace Stepper.Number

open Shortest

variable {num den m k n : Nat}

/-! ## Intervals -/

/-- The quotient lies in the interval of the float with magnitude `m · 2^k`. -/
def Near (num den m k : Nat) : Prop :=
  ((interval m k).scale den).contains (num * pow2 1076) = true

/-- No whole number is nearer to the quotient, and if another one is as near,
    this one is even. -/
structure Nearest (num den m : Nat) : Prop where
  low : 2 * (m * den) ≤ 2 * num + den
  high : 2 * num ≤ 2 * (m * den) + den
  even : 2 * (m * den) = 2 * num + den ∨ 2 * num = 2 * (m * den) + den → m % 2 = 0

theorem bounds_of_contains {i : Interval} (ordered : i.low < i.high) (h : i.contains n = true) :
    i.low ≤ n ∧ n ≤ i.high ∧ (n = i.low ∨ n = i.high → i.closed = true) := by
  simp only [Interval.contains, Bool.or_eq_true, Bool.and_eq_true, decide_eq_true_eq] at h
  rcases h with inside | ⟨closed, bound⟩
  · exact ⟨by omega, by omega, by omega⟩
  · exact ⟨by omega, by omega, fun _ => closed⟩

theorem contains_of_between {i : Interval} (low : i.low < n) (high : n < i.high) :
    i.contains n = true := by
  simp [Interval.contains, low, high]

/-- How far the interval of a float reaches below it, if the floats above it
    are `4 * step` apart. -/
def reach (m k step : Nat) : Nat := if m = pow2 52 ∧ 0 < k then step else 2 * step

theorem low_scale (m k den : Nat) :
    ((interval m k).scale den).low =
      4 * (m * (den * pow2 k)) - reach m k (den * pow2 k) := by
  change (4 * m * pow2 k - if m = pow2 52 ∧ 0 < k then pow2 k else 2 * pow2 k) * den = _
  rw [Nat.sub_mul, show 4 * m * pow2 k * den = 4 * (m * (den * pow2 k)) by ring, reach]
  split <;> ring_nf

theorem high_scale (m k den : Nat) :
    ((interval m k).scale den).high = 4 * (m * (den * pow2 k)) + 2 * (den * pow2 k) := by
  change (4 * m * pow2 k + 2 * pow2 k) * den = _
  ring

theorem quarters (num : Nat) : num * pow2 1076 = 4 * (num * pow2 1074) := by
  rw [pow2_succ, pow2_succ]
  ring

/-- Quotients of the interval in units of its float. -/
theorem Near.bounds (h : Near num den m k) (positive : 0 < den) :
    4 * (m * (den * pow2 k)) - reach m k (den * pow2 k) ≤ 4 * (num * pow2 1074) ∧
    4 * (num * pow2 1074) ≤ 4 * (m * (den * pow2 k)) + 2 * (den * pow2 k) ∧
    (4 * (num * pow2 1074) = 4 * (m * (den * pow2 k)) - reach m k (den * pow2 k) ∨
      4 * (num * pow2 1074) = 4 * (m * (den * pow2 k)) + 2 * (den * pow2 k) → m % 2 = 0) := by
  have step : 0 < den * pow2 k := Nat.mul_pos positive (pow2_pos k)
  have bounds := bounds_of_contains (by rw [low_scale, high_scale]; omega) h
  rw [low_scale, high_scale, quarters] at bounds
  obtain ⟨low, high, even⟩ := bounds
  exact ⟨low, high, fun bound => of_decide_eq_true (even bound)⟩

theorem Near.nearest (h : Near num den m k) (positive : 0 < den) :
    Nearest (num * pow2 1074) (den * pow2 k) m := by
  obtain ⟨low, high, even⟩ := h.bounds positive
  have step : 0 < den * pow2 k := Nat.mul_pos positive (pow2_pos k)
  by_cases power : m = pow2 52 ∧ 0 < k
  · rw [reach, if_pos power] at low
    exact ⟨by omega, by omega, fun _ => power.1 ▸ rfl⟩
  · rw [reach, if_neg power] at low even
    exact ⟨by omega, by omega, fun tie => even (by omega)⟩

/-- The value of the float itself lies in the interval. -/
theorem near_of_exact (positive : 0 < den) (nonzero : 0 < m)
    (exact : num * pow2 1074 = m * (den * pow2 k)) : Near num den m k := by
  have step : 0 < den * pow2 k := Nat.mul_pos positive (pow2_pos k)
  have value : 0 < m * (den * pow2 k) := Nat.mul_pos nonzero step
  rw [Near, quarters, exact]
  refine contains_of_between ?_ ?_
  · rw [low_scale, reach]
    split <;> omega
  · rw [high_scale]
    omega

/-- The floats below a power of two lie twice as close. -/
theorem Near.close (h : Near num den (pow2 52) k) (positive : 0 < den) (normal : 0 < k) :
    4 * (pow2 52 * (den * pow2 k)) ≤ 4 * (num * pow2 1074) + den * pow2 k := by
  obtain ⟨low, -, -⟩ := h.bounds positive
  rw [reach, if_pos ⟨rfl, normal⟩] at low
  omega

/-! ## Rounding -/

theorem roundDiv_of_nearest (h : Nearest num den m) (positive : 0 < den) :
    Binary64.roundDiv num den = m := by
  have total : num / den * den + num % den = num := Nat.div_add_mod' num den
  have rest : num % den < den := Nat.mod_lt num positive
  obtain ⟨low, high, even⟩ := h
  have below : m ≤ num / den + 1 := by
    refine Nat.le_of_lt_succ (Nat.lt_of_mul_lt_mul_right (a := den) ?_)
    rw [Nat.succ_mul, Nat.succ_mul]
    omega
  have above : num / den ≤ m := by
    refine Nat.le_of_lt_succ (Nat.lt_of_mul_lt_mul_right (a := den) ?_)
    rw [Nat.succ_mul]
    omega
  have next : num / den = m ∨ num / den + 1 = m := by omega
  unfold Binary64.roundDiv
  rcases next with floor | ceiling
  · rw [floor] at total ⊢
    simp only
    split
    · rfl
    · rw [if_neg (by omega), if_pos (even (by omega))]
  · subst ceiling
    rw [Nat.succ_mul (num / den)] at low high even
    simp only
    rw [if_neg (by omega)]
    split
    · rfl
    · rw [if_neg (by omega)]

/-- The exponent of the float next to a quotient. -/
theorem log2_of_between (positive : 0 < den) (low : 0 < k → pow2 52 * (den * pow2 k) ≤ num)
    (high : num < pow2 53 * (den * pow2 k)) : (num / den).log2 - 52 = k := by
  have below : num / den < pow2 (k + 53) := by
    rw [Nat.div_lt_iff_lt_mul positive, pow2_add]
    calc num < pow2 53 * (den * pow2 k) := high
      _ = pow2 k * pow2 53 * den := by ring
  rcases Nat.eq_zero_or_pos k with rfl | normal
  · by_cases zero : num / den = 0
    · rw [zero]
      rfl
    · have small : (num / den).log2 < 0 + 53 := (Nat.log2_lt zero).2 below
      omega
  · have above : pow2 (k + 52) ≤ num / den := by
      rw [Nat.le_div_iff_mul_le positive, pow2_add]
      calc pow2 k * pow2 52 * den = pow2 52 * (den * pow2 k) := by ring
        _ ≤ num := low normal
    have nonzero : num / den ≠ 0 := by
      have := pow2_pos (k + 52)
      omega
    have large : k + 52 ≤ (num / den).log2 := (Nat.le_log2 nonzero).2 above
    have small : (num / den).log2 < k + 53 := (Nat.log2_lt nonzero).2 below
    omega

/-- The bits of the float next to a quotient, from the binade of the quotient. -/
theorem bitsOfRatio_of_between (positive : 0 < den)
    (low : 0 < k → pow2 52 * (den * pow2 k) ≤ num * pow2 1074)
    (high : num * pow2 1074 < pow2 53 * (den * pow2 k))
    (nearest : Nearest (num * pow2 1074) (den * pow2 k) m) :
    Binary64.bitsOfRatio num den = min (k * pow2 52 + m) Binary64.infinityBits := by
  have exponent := log2_of_between positive low high
  have mantissa := roundDiv_of_nearest nearest (Nat.mul_pos positive (pow2_pos k))
  simp only [Binary64.bitsOfRatio, exponent, mantissa]

theorem bits_lt_infinityBits (magnitude : Magnitude m k) :
    k * pow2 52 + m < Binary64.infinityBits := by
  obtain ⟨below, -, range⟩ := magnitude
  have binade : k * pow2 52 ≤ 2045 * pow2 52 := Nat.mul_le_mul_right _ range
  rw [Binary64.pow2_fiftythree] at below
  rw [Binary64.infinityBits]
  omega

/-- Just below a power of two the floats lie closer, but they are passed over. -/
theorem bitsOfRatio_of_close (positive : 0 < den) (near : Near num den (pow2 52) (k + 1))
    (below : num * pow2 1074 < pow2 52 * (den * pow2 (k + 1))) :
    Binary64.bitsOfRatio num den =
      min ((k + 1) * pow2 52 + pow2 52) Binary64.infinityBits := by
  have close := near.close positive (Nat.succ_pos k)
  have step : den * pow2 (k + 1) = 2 * (den * pow2 k) := by
    rw [pow2_succ]
    ring
  have finer : pow2 53 * (den * pow2 k) = 2 * (pow2 52 * (den * pow2 k)) := by
    rw [Binary64.pow2_fiftythree]
    ring
  have coarse : pow2 52 * (den * pow2 (k + 1)) = 2 * (pow2 52 * (den * pow2 k)) := by
    rw [step]
    ring
  have large : den * pow2 k ≤ pow2 52 * (den * pow2 k) := Nat.le_mul_of_pos_left _ (pow2_pos 52)
  rw [coarse] at close below
  rw [step] at close
  -- In the lower binade the quotient is next to 2^53, whose bits are those of the upper 2^52.
  have nearest : Nearest (num * pow2 1074) (den * pow2 k) (pow2 53) :=
    ⟨by omega, by omega, fun _ => rfl⟩
  have bits : k * pow2 52 + pow2 53 = (k + 1) * pow2 52 + pow2 52 := by
    rw [Binary64.pow2_fiftythree]
    ring
  rw [bitsOfRatio_of_between positive (fun _ => by omega) (by omega) nearest, bits]

/-- The bits of the float whose interval holds the quotient. -/
theorem bitsOfRatio_of_near (positive : 0 < den) (magnitude : Magnitude m k)
    (near : Near num den m k) : Binary64.bitsOfRatio num den = k * pow2 52 + m := by
  have finite : min (k * pow2 52 + m) Binary64.infinityBits = k * pow2 52 + m :=
    Nat.min_eq_left (bits_lt_infinityBits magnitude).le
  have step : 0 < den * pow2 k := Nat.mul_pos positive (pow2_pos k)
  have nearest := near.nearest positive
  have bounds := nearest.low
  -- Only just below a power of two the binade of the quotient is not that of the float.
  by_cases binade : 0 < k → pow2 52 * (den * pow2 k) ≤ num * pow2 1074
  · have high : num * pow2 1074 < pow2 53 * (den * pow2 k) := by
      have bound : (m + 1) * (den * pow2 k) ≤ pow2 53 * (den * pow2 k) :=
        Nat.mul_le_mul_right _ magnitude.below
      have := nearest.high
      rw [Nat.succ_mul m] at bound
      omega
    rw [bitsOfRatio_of_between positive binade high nearest, finite]
  · rw [not_forall, exists_prop, Nat.not_le] at binade
    obtain ⟨normal, below⟩ := binade
    have least : m = pow2 52 := by
      refine Nat.le_antisymm (Nat.le_of_not_lt fun above => ?_) (magnitude.full normal)
      have bound : (pow2 52 + 1) * (den * pow2 k) ≤ m * (den * pow2 k) :=
        Nat.mul_le_mul_right _ above
      rw [Nat.succ_mul (pow2 52)] at bound
      omega
    obtain ⟨k, rfl⟩ := Nat.exists_eq_add_of_le' normal
    subst least
    rw [bitsOfRatio_of_close positive near below, finite]

/-- A quotient in the interval of a float is rounded to that float. -/
theorem ofRatio_of_near {x : Float} {negative : Bool} (positive : 0 < den)
    (parts : Binary64.parts x = .finite negative m k) (near : Near num den m k) :
    Binary64.ofRatio negative num den = x := by
  rw [Binary64.ofRatio, bitsOfRatio_of_near positive (Binary64.magnitude_of_parts parts) near,
    Nat.add_comm, Binary64.ofBits_of_parts parts]

end Stepper.Number
