/-
  The shortest decimal of a float.

  The search for it ends (`exists_search`), since the finest grid it looks at
  is finer than the distance of neighbouring floats, and what it finds lies in
  the interval of the float (`near_shortest`).  The decimal is a whole number
  exactly if the float is one.
-/
import Stepper.Proofs.Number.Decimal

namespace Stepper.Number

namespace Shortest

variable {i : Interval} {tie : Tie} {m k n step d : Nat} {p : Int}

/-! ## Points of a grid -/

theorem contains_of_nearest? (h : i.nearest? tie step = some d) :
    i.contains (d * step) = true := by
  unfold Interval.nearest? at h
  simp only at h
  split at h
  · rename_i below above
    cases h
    split
    · exact below
    split
    · exact above
    · unfold Tie.pick
      split
      · exact above
      split
      · exact below
      · exact above
  · rename_i below _
    cases h
    exact below
  · rename_i _ above
    cases h
    exact above
  · cases h

/-- The point of the grid above a number is found if it is near enough. -/
theorem nearest?_isSome_of_fine (positive : 0 < step) (low : i.low ≤ i.value)
    (high : i.value + step < i.high) : (i.nearest? tie step).isSome = true := by
  have floor := Nat.div_mul_le_self i.value step
  have next := Nat.lt_div_mul_add (a := i.value) positive
  have above : i.contains ((i.value / step + 1) * step) = true := by
    rw [Nat.succ_mul]
    exact contains_of_between (by omega) (by omega)
  unfold Interval.nearest?
  simp only [above]
  split <;> simp_all

/-- A number on the grid is found. -/
theorem nearest?_isSome_of_multiple (positive : 0 < step) (value : i.value = d * step)
    (inside : i.contains i.value = true) : (i.nearest? tie step).isSome = true := by
  have below : i.contains (i.value / step * step) = true := by
    rw [value, Nat.mul_div_cancel _ positive, ← value]
    exact inside
  unfold Interval.nearest?
  simp only [below]
  split <;> simp_all

theorem onGrid?_ofNat (tie : Tie) (m k n : Nat) :
    onGrid? tie m k (.ofNat n) = (interval m k).nearest? tie (pow10 n * pow2 1076) := rfl

theorem onGrid?_negSucc (tie : Tie) (m k n : Nat) :
    onGrid? tie m k (.negSucc n) =
      ((interval m k).scale (pow10 (n + 1))).nearest? tie (pow2 1076) := rfl

theorem near_of_onGrid? (h : onGrid? tie m k p = some d) : Decimal.Near ⟨d, p⟩ m k := by
  cases p with
  | ofNat n =>
    rw [onGrid?_ofNat] at h
    have unscaled : (interval m k).scale 1 = interval m k := by
      simp only [Interval.scale, Nat.mul_one]
    rw [Decimal.Near, Near, Decimal.num_ofNat, Decimal.den_ofNat, unscaled, Nat.mul_assoc]
    exact contains_of_nearest? h
  | negSucc n =>
    rw [onGrid?_negSucc] at h
    exact contains_of_nearest? h

/-! ## The finest grid -/

theorem low_lt_value (positive : 0 < m) : (interval m k).low < (interval m k).value := by
  have step := pow2_pos k
  have value : 0 < 4 * m * pow2 k := Nat.mul_pos (by omega) step
  simp only [interval]
  split <;> omega

theorem log2_lt_of_magnitude (magnitude : Magnitude m k) (positive : 0 < m) : m.log2 < 53 :=
  (Nat.log2_lt (by omega)).2 magnitude.below

/-- The last grid of the search has a point in the interval: with 22 places
    more than the number has before the point, it is finer than 53 bits are. -/
theorem onGrid?_finest (magnitude : Magnitude m k) (positive : 0 < m) :
    (onGrid? tie m k (coarsest m k - 24)).isSome = true := by
  have bits := log2_lt_of_magnitude magnitude positive
  have range := magnitude.range
  have low := (low_lt_value (k := k) positive).le
  have step := pow2_pos k
  generalize grid : coarsest m k - 24 = p
  rw [coarsest] at grid
  cases p with
  | ofNat n =>
    rw [Int.ofNat_eq_natCast] at grid
    have large : 1076 ≤ k := by omega
    have fine : pow10 n * pow2 1076 ≤ pow2 k := by
      have power : pow10 n ≤ pow2 (k - 1076) := pow10_le_pow2 (by omega)
      calc pow10 n * pow2 1076 ≤ pow2 (k - 1076) * pow2 1076 := Nat.mul_le_mul_right _ power
        _ = pow2 k := by rw [← pow2_add, Nat.sub_add_cancel large]
    rw [onGrid?_ofNat]
    refine nearest?_isSome_of_fine (Nat.mul_pos (pow10_pos n) (pow2_pos 1076)) low ?_
    change 4 * m * pow2 k + pow10 n * pow2 1076 < 4 * m * pow2 k + 2 * pow2 k
    omega
  | negSucc n =>
    have fine : pow2 1076 ≤ pow2 k * pow10 (n + 1) := by
      have power : pow2 (1076 - k) ≤ pow10 (n + 1) := pow2_le_pow10 (by omega)
      calc pow2 1076 ≤ pow2 (k + (1076 - k)) := pow2_le (by omega)
        _ = pow2 k * pow2 (1076 - k) := pow2_add k _
        _ ≤ pow2 k * pow10 (n + 1) := Nat.mul_le_mul_left _ power
    have scaled : 0 < pow2 k * pow10 (n + 1) := Nat.mul_pos step (pow10_pos _)
    rw [onGrid?_negSucc]
    refine nearest?_isSome_of_fine (pow2_pos 1076) (Nat.mul_le_mul_right _ low) ?_
    change 4 * m * pow2 k * pow10 (n + 1) + pow2 1076 <
      (4 * m * pow2 k + 2 * pow2 k) * pow10 (n + 1)
    rw [Nat.add_mul, Nat.mul_assoc 2]
    omega

/-! ## The search -/

/-- The search ends if it comes to a grid with a point in the interval. -/
theorem exists_search {steps n : Nat} (h : (onGrid? tie m k (p - n)).isSome = true)
    (within : n < steps) : ∃ d, search tie m k steps p = some d := by
  induction steps generalizing n p with
  | zero => omega
  | succ steps ih =>
    rw [search]
    cases found : onGrid? tie m k p with
    | some digits => exact ⟨⟨digits, p⟩, rfl⟩
    | none =>
      cases n with
      | zero =>
        rw [Int.natCast_zero, Int.sub_zero, found] at h
        cases h
      | succ n =>
        refine ih (n := n) ?_ (by omega)
        rwa [show p - 1 - n = p - (n + 1 : Nat) by omega]

/-- What is found is on its grid, and no coarser grid has anything. -/
theorem search_eq_some {steps : Nat} {d : Decimal} (h : search tie m k steps p = some d) :
    onGrid? tie m k d.exponent = some d.digits ∧
      ∀ q, d.exponent < q → q ≤ p → onGrid? tie m k q = none := by
  induction steps generalizing p with
  | zero => cases h
  | succ steps ih =>
    rw [search] at h
    split at h
    · rename_i digits found
      cases h
      exact ⟨found, fun q above below => absurd above (Int.not_lt.2 below)⟩
    · rename_i nothing
      obtain ⟨found, coarser⟩ := ih h
      refine ⟨found, fun q above below => ?_⟩
      by_cases last : q = p
      · rw [last, nothing]
      · exact coarser q above (by omega)

end Shortest

open Shortest

variable {tie : Tie} {m k n : Nat} {x : Float} {negative : Bool}

theorem search_eq_shortest (magnitude : Magnitude m k) (positive : 0 < m) :
    search tie m k 25 (coarsest m k) = some (shortest tie m k) := by
  have finest : (onGrid? tie m k (coarsest m k - 24)).isSome = true :=
    onGrid?_finest magnitude positive
  have within : 24 < 25 := by decide
  obtain ⟨d, found⟩ := exists_search finest within
  rw [shortest, found]
  rfl

/-- The shortest decimal reads back. -/
theorem near_shortest (magnitude : Magnitude m k) (positive : 0 < m) :
    (shortest tie m k).Near m k :=
  near_of_onGrid? (search_eq_some (search_eq_shortest magnitude positive)).1

/-! ## Whole numbers -/

theorem whole?_eq_some (h : m * pow2 k = n * pow2 1074) : whole? m k = some n := by
  rw [whole?, h, Nat.mul_mod_left, if_pos rfl, Nat.mul_div_cancel _ (pow2_pos 1074)]

theorem units_of_whole? (h : whole? m k = some n) : m * pow2 k = n * pow2 1074 := by
  unfold whole? at h
  split at h
  · rename_i whole
    cases h
    exact (Nat.div_mul_cancel (Nat.dvd_of_mod_eq_zero whole)).symm
  · cases h

theorem whole?_zero (k : Nat) : whole? 0 k = some 0 := by
  refine whole?_eq_some ?_
  rw [Nat.zero_mul, Nat.zero_mul]

theorem Nearest.eq_of_multiple {den : Nat} (h : Nearest (n * den) den m) (positive : 0 < den) :
    m = n := by
  obtain ⟨low, high, -⟩ := h
  have below : m < n + 1 := by
    refine Nat.lt_of_mul_lt_mul_right (a := den) ?_
    rw [Nat.succ_mul n]
    omega
  have above : n < m + 1 := by
    refine Nat.lt_of_mul_lt_mul_right (a := den) ?_
    rw [Nat.succ_mul m]
    omega
  omega

/-- Large floats are whole numbers. -/
theorem whole?_of_coarse (m : Nat) (coarse : 1074 ≤ k) :
    whole? m k = some (m * pow2 (k - 1074)) := by
  refine whole?_eq_some ?_
  rw [Nat.mul_assoc, ← pow2_add, Nat.sub_add_cancel coarse]

/-- There are no fractions from 10^16 on. -/
theorem exists_whole_of_large (magnitude : Magnitude m k)
    (large : pow10 16 * pow2 1074 ≤ m * pow2 k) : ∃ n, whole? m k = some n ∧ pow10 16 ≤ n := by
  have coarse : 1074 ≤ k := by
    refine Nat.le_of_not_lt fun fine => ?_
    have below : m * pow2 k < pow2 53 * pow2 1074 :=
      Nat.mul_lt_mul_of_lt_of_le magnitude.below (pow2_le fine.le) (pow2_pos 1074)
    have bits : pow2 53 ≤ pow10 16 := by decide
    have := Nat.mul_le_mul_right (pow2 1074) bits
    omega
  have whole := whole?_of_coarse m coarse
  rw [units_of_whole? whole] at large
  exact ⟨_, whole, Nat.le_of_mul_le_mul_right large (pow2_pos 1074)⟩

/-- A whole number lies only in the intervals of floats that are whole numbers. -/
theorem exists_whole_of_near (near : Near n 1 m k) : ∃ whole, whole? m k = some whole := by
  by_cases coarse : 1074 ≤ k
  · exact ⟨_, whole?_of_coarse m coarse⟩
  · have units : pow2 1074 = pow2 (1074 - k) * pow2 k := by
      rw [← pow2_add, Nat.sub_add_cancel (by omega)]
    have nearest := near.nearest Nat.one_pos
    rw [Nat.one_mul, units, ← Nat.mul_assoc] at nearest
    refine ⟨n, whole?_eq_some ?_⟩
    rw [nearest.eq_of_multiple (pow2_pos k), units, Nat.mul_assoc]

/-- Other numbers need places after the point. -/
theorem exponent_shortest_neg (magnitude : Magnitude m k) (positive : 0 < m)
    (fraction : whole? m k = none) : (shortest tie m k).exponent < 0 := by
  have near : (shortest tie m k).Near m k := near_shortest magnitude positive
  generalize shortest tie m k = d at near
  obtain ⟨digits, exponent⟩ := d
  cases exponent with
  | ofNat e =>
    rw [Decimal.Near, Decimal.num_ofNat, Decimal.den_ofNat] at near
    obtain ⟨whole, value⟩ := exists_whole_of_near near
    rw [fraction] at value
    cases value
  | negSucc e => exact Int.negSucc_lt_zero e

/-- A whole number lies on the grid of the whole numbers. -/
theorem onGrid?_zero (positive : 0 < m) (whole : whole? m k = some n) :
    (onGrid? tie m k 0).isSome = true := by
  have unit : pow10 0 = 1 := rfl
  have value : 4 * m * pow2 k = n * pow2 1076 := by
    rw [Nat.mul_assoc, units_of_whole? whole, quarters]
  have inside : (interval m k).contains (interval m k).value = true := by
    refine contains_of_between (low_lt_value positive) ?_
    exact Nat.lt_add_of_pos_right (Nat.mul_pos (by decide) (pow2_pos k))
  have grid : onGrid? tie m k 0 = (interval m k).nearest? tie (pow10 0 * pow2 1076) :=
    onGrid?_ofNat tie m k 0
  rw [grid, unit, Nat.one_mul]
  exact nearest?_isSome_of_multiple (pow2_pos 1076) value inside

/-- The search begins with a whole grid where the floats are large. -/
theorem coarsest_nonneg (large : pow2 1074 ≤ m * pow2 k) : 0 ≤ coarsest m k := by
  have next : m * pow2 k < pow2 (m.log2 + 1 + k) := by
    rw [pow2_add]
    exact Nat.mul_lt_mul_of_pos_right Nat.lt_log2_self (pow2_pos k)
  have bits : 1074 < m.log2 + 1 + k := by
    refine Nat.lt_of_not_le fun small => ?_
    have := pow2_le small
    omega
  rw [coarsest]
  omega

/-- Whole numbers need no places after the point. -/
theorem exponent_shortest_nonneg (magnitude : Magnitude m k) (positive : 0 < m)
    (whole : whole? m k = some n) : 0 ≤ (shortest tie m k).exponent := by
  have units := units_of_whole? whole
  have nonzero : 0 < n := by
    refine Nat.pos_of_ne_zero fun zero => ?_
    have := Nat.mul_pos positive (pow2_pos k)
    rw [units, zero, Nat.zero_mul] at this
    omega
  have large : pow2 1074 ≤ m * pow2 k := by
    rw [units]
    exact Nat.le_mul_of_pos_left _ nonzero
  refine Int.not_lt.1 fun negative => ?_
  obtain ⟨-, coarser⟩ := search_eq_some (search_eq_shortest magnitude positive)
  have found : (onGrid? tie m k 0).isSome = true := onGrid?_zero positive whole
  rw [coarser 0 negative (coarsest_nonneg large)] at found
  cases found

/-- A whole number is the value of its text. -/
theorem floatOfDecimal_whole (parts : Binary64.parts x = .finite negative m k)
    (whole : whole? m k = some n) : floatOfDecimal negative ⟨n * 10, -1⟩ = x := by
  rcases Nat.eq_zero_or_pos m with rfl | nonzero
  · rw [whole?_zero] at whole
    cases whole
    exact Decimal.floatOfDecimal_zero parts (-1)
  · have exact : n * 10 * pow2 1074 = m * (10 * pow2 k) := by
      rw [Nat.mul_left_comm, units_of_whole? whole]
      ring
    have near : Decimal.Near ⟨n * 10, -1⟩ m k := near_of_exact (Decimal.den_pos _) nonzero exact
    exact Decimal.floatOfDecimal_of_near parts nonzero near

end Stepper.Number
