/-
  The order of floats.

  Floats that are numbers are ordered like whole numbers, their ranks
  (`lt_iff_rank_lt`, `beq_iff_rank_eq`), and rounding an integer to the nearest
  float keeps the order (`rank_ofInt_le`).
-/
import Stepper.Proofs.Number.Rounding

namespace Stepper.Number

open Float.Model UnpackedFloat

/-- The sign of a float. -/
def sign (negative : Bool) : Sign := if negative then .negative else .positive

/-- The parts as the native floats have them, in units of one. -/
def Parts.unpacked : Parts → UnpackedFloat
  | nan => .notANumber
  | infinite negative => .infinity (sign negative)
  | finite negative 0 _ => .zero (sign negative)
  | finite negative (m + 1) k => .finite (sign negative) (m + 1) (k - 1074) m.succ_pos

theorem Parts.unpacked_finite {m : Nat} (negative : Bool) (positive : 0 < m) (k : Nat) :
    (Parts.finite negative m k).unpacked = .finite (sign negative) m (k - 1074) positive := by
  cases m with
  | zero => cases positive
  | succ m => rfl

namespace Binary64

/-! ## Fields of a word -/

variable (w : UInt64)

theorem toNat_mantissa : (@unpackMantissa .binary64 w.toBitVec).toNat = w.toNat % 2 ^ 52 := by
  rw [unpackMantissa_def, BitVec.extractLsb'_toNat]
  rfl

theorem toNat_exponent :
    (@unpackExponent .binary64 w.toBitVec).toNat = w.toNat / 2 ^ 52 % 2 ^ 11 := by
  rw [unpackExponent_def, BitVec.extractLsb'_toNat, Nat.shiftRight_eq_div_pow]
  rfl

theorem toNat_sign : (@unpackSign .binary64 w.toBitVec).toNat = w.toNat / 2 ^ 63 % 2 := by
  rw [unpackSign_def, BitVec.extractLsb'_toNat, Nat.shiftRight_eq_div_pow]
  rfl

theorem exponent_eq_ones_iff :
    @unpackExponent .binary64 w.toBitVec = -1#_ ↔ infinityBits ≤ w.toNat % pow2 63 := by
  rw [← BitVec.toNat_inj, toNat_exponent]
  change _ = 2047 ↔ 2047 * 2 ^ 52 ≤ w.toNat % 2 ^ 63
  omega

theorem exponent_eq_zero_iff :
    @unpackExponent .binary64 w.toBitVec = 0#_ ↔ w.toNat % pow2 63 < pow2 52 := by
  rw [← BitVec.toNat_inj, toNat_exponent]
  change _ = 0 ↔ w.toNat % 2 ^ 63 < 2 ^ 52
  omega

theorem mantissa_eq_zero_iff :
    @unpackMantissa .binary64 w.toBitVec = 0#_ ↔ w.toNat % pow2 63 % pow2 52 = 0 := by
  rw [← BitVec.toNat_inj, toNat_mantissa]
  change _ = 0 ↔ w.toNat % 2 ^ 63 % 2 ^ 52 = 0
  omega

theorem ofBitVec_sign :
    Sign.ofBitVec (@unpackSign .binary64 w.toBitVec) = sign (pow2 63 ≤ w.toNat) := by
  have word : w.toNat < 2 ^ 64 := w.toNat_lt
  have clear : @unpackSign .binary64 w.toBitVec = 0#1 ↔ ¬ pow2 63 ≤ w.toNat := by
    rw [← BitVec.toNat_inj, toNat_sign]
    change _ = 0 ↔ ¬ 2 ^ 63 ≤ w.toNat
    omega
  simp only [Sign.ofBitVec, clear, sign, decide_eq_true_eq]
  by_cases negative : pow2 63 ≤ w.toNat <;> simp [negative]

theorem unpack_of_ones (ones : infinityBits ≤ w.toNat % pow2 63) :
    UnpackedFloat.unpack .binary64 w.toBitVec =
      if w.toNat % pow2 63 = infinityBits then .infinity (sign (pow2 63 ≤ w.toNat))
      else .notANumber := by
  have zero : w.toNat % pow2 63 % pow2 52 = 0 ↔ w.toNat % pow2 63 = infinityBits := by
    change 2047 * 2 ^ 52 ≤ w.toNat % 2 ^ 63 at ones
    change w.toNat % 2 ^ 63 % 2 ^ 52 = 0 ↔ w.toNat % 2 ^ 63 = 2047 * 2 ^ 52
    omega
  simp only [UnpackedFloat.unpack, if_pos ((exponent_eq_ones_iff w).2 ones), ofBitVec_sign]
  split
  · rename_i none
    rw [if_pos (zero.1 ((mantissa_eq_zero_iff w).1 none))]
  · rename_i some
    rw [if_neg fun all => some ((mantissa_eq_zero_iff w).2 (zero.2 all))]

theorem unpack_of_subnormal (subnormal : w.toNat % pow2 63 < pow2 52) :
    UnpackedFloat.unpack .binary64 w.toBitVec =
      (Parts.finite (pow2 63 ≤ w.toNat) (w.toNat % pow2 63) 0).unpacked := by
  have ones : ¬ infinityBits ≤ w.toNat % pow2 63 :=
    Nat.not_le.2 (Nat.lt_trans subnormal (by decide))
  have bits : w.toNat % pow2 63 % pow2 52 = w.toNat % pow2 63 := Nat.mod_eq_of_lt subnormal
  simp only [UnpackedFloat.unpack, if_neg (mt (exponent_eq_ones_iff w).1 ones),
    if_pos ((exponent_eq_zero_iff w).2 subnormal), ofBitVec_sign]
  split
  · rename_i none
    rw [mantissa_eq_zero_iff, bits] at none
    rw [none]
    rfl
  · rename_i some
    rw [mantissa_eq_zero_iff, bits] at some
    rw [Parts.unpacked_finite _ (Nat.pos_of_ne_zero some), finite.injEq]
    refine ⟨rfl, ?_, ?_⟩
    · rw [toNat_mantissa, ← bits]
      change w.toNat % 2 ^ 52 = w.toNat % 2 ^ 63 % 2 ^ 52
      omega
    · rw [(exponent_eq_zero_iff w).2 subnormal]
      rfl

theorem unpack_of_normal (normal : pow2 52 ≤ w.toNat % pow2 63)
    (number : w.toNat % pow2 63 < infinityBits) :
    UnpackedFloat.unpack .binary64 w.toBitVec =
      (Parts.finite (pow2 63 ≤ w.toNat)
        (w.toNat % pow2 63 - (w.toNat % pow2 63 / pow2 52 - 1) * pow2 52)
        (w.toNat % pow2 63 / pow2 52 - 1)).unpacked := by
  have exponent : w.toNat / 2 ^ 52 % 2 ^ 11 = w.toNat % 2 ^ 63 / 2 ^ 52 := by omega
  have mantissa : w.toNat % 2 ^ 52 = w.toNat % 2 ^ 63 % 2 ^ 52 := by omega
  simp only [UnpackedFloat.unpack,
    if_neg (mt (exponent_eq_ones_iff w).1 (Nat.not_le.2 number)),
    if_neg (mt (exponent_eq_zero_iff w).1 (Nat.not_lt.2 normal)), ofBitVec_sign]
  simp only [show pow2 63 = 2 ^ 63 from rfl, show pow2 52 = 2 ^ 52 from rfl] at normal ⊢
  rw [Parts.unpacked_finite _ (by omega), finite.injEq]
  refine ⟨rfl, ?_, ?_⟩
  · rw [BitVec.toNat_append, toNat_mantissa, mantissa,
      ← Nat.shiftLeft_add_eq_or_of_lt (Nat.mod_lt _ (by decide))]
    change 1 <<< 52 + w.toNat % 2 ^ 63 % 2 ^ 52 = _
    omega
  · rw [toNat_exponent, exponent]
    change ((w.toNat % 2 ^ 63 / 2 ^ 52 : Nat) : Int) - (1023 + 52) = _
    omega

/-- A word is unpacked into its parts. -/
theorem unpack_eq_unpacked : UnpackedFloat.unpack .binary64 w.toBitVec =
    (partsOfBits (pow2 63 ≤ w.toNat) (w.toNat % pow2 63)).unpacked := by
  unfold partsOfBits
  split
  · rename_i beyond
    rw [unpack_of_ones w (Nat.le_of_lt beyond), if_neg (Nat.ne_of_gt beyond)]
    rfl
  rename_i number
  split
  · rename_i infinite
    rw [unpack_of_ones w (Nat.le_of_eq infinite.symm), if_pos infinite]
    rfl
  rename_i finite
  split
  · rename_i subnormal
    exact unpack_of_subnormal w subnormal
  · rename_i normal
    exact unpack_of_normal w (Nat.not_lt.1 normal) (by omega)

end Binary64

/-! ## Ranks -/

open Binary64 (infinityBits)

/-- The whole number with the given sign. -/
def withSign : Bool → Nat → Int
  | true, n => -n
  | false, n => n

/-- How far the parts lie from zero among all floats. -/
def Parts.rank : Parts → Int
  | nan => 0
  | infinite negative => withSign negative infinityBits
  | finite negative m k => withSign negative (m + k * pow2 52)

/-- The parts are those of a number. -/
inductive Parts.Numeric : Parts → Prop
  | infinite (negative : Bool) : Numeric (.infinite negative)
  | finite (negative : Bool) {m k : Nat} (magnitude : Magnitude m k) :
    Numeric (.finite negative m k)

theorem Parts.Numeric.isNaN_unpacked {p : Parts} (h : p.Numeric) : p.unpacked.isNaN = false := by
  cases h with
  | infinite => rfl
  | @finite _ m => cases m <;> rfl

variable {m m' k k' : Nat}

theorem Magnitude.lt_of_lt (h : Magnitude m k) (h' : Magnitude m' k') (lower : k < k') :
    m + k * pow2 52 < m' + k' * pow2 52 := by
  have below := h.below
  have full := h'.full (Nat.zero_lt_of_lt lower)
  have step : (k + 1) * pow2 52 ≤ k' * pow2 52 := Nat.mul_le_mul_right _ lower
  rw [Binary64.pow2_fiftythree] at below
  rw [Nat.succ_mul] at step
  omega

theorem compare_congr {α β : Type} [LinearOrder α] [LinearOrder β] {a b : α} {c d : β}
    (less : a < b ↔ c < d) (more : b < a ↔ d < c) : compare a b = compare c d := by
  rcases lt_trichotomy c d with below | rfl | above
  · rw [compare_lt_iff_lt.2 below, compare_lt_iff_lt.2 (less.2 below)]
  · have same : a = b := le_antisymm (not_lt.1 (mt more.1 (lt_irrefl c)))
      (not_lt.1 (mt less.1 (lt_irrefl c)))
    rw [compare_eq_iff_eq.2 same, compare_eq_iff_eq.2 rfl]
  · rw [compare_gt_iff_gt.2 above, compare_gt_iff_gt.2 (more.2 above)]

/-- Magnitudes compare by their exponents first. -/
theorem Magnitude.compare (h : Magnitude m k) (h' : Magnitude m' k') :
    (Ord.compare ((k : Int) - 1074) (k' - 1074)).then (Ord.compare m m') =
      Ord.compare (m + k * pow2 52 : Nat) (m' + k' * pow2 52) := by
  rcases Nat.lt_trichotomy k k' with lower | rfl | higher
  -- Different exponents decide alone, whatever the mantissas are.
  · have := h.lt_of_lt h' lower
    rw [compare_lt_iff_lt.2 (by omega), compare_lt_iff_lt.2 this]
    rfl
  · rw [compare_eq_iff_eq.2 rfl, Ordering.eq_then]
    exact compare_congr (by omega) (by omega)
  · have := h'.lt_of_lt h higher
    rw [compare_gt_iff_gt.2 (by omega), compare_gt_iff_gt.2 this]
    rfl

theorem Magnitude.rank_zero (h : Magnitude 0 k) (negative : Bool) :
    (Parts.finite negative 0 k).rank = 0 := by
  have exponent : k = 0 := by
    have := h.full
    have := pow2_pos 52
    omega
  subst exponent
  cases negative <;> rfl

theorem rank_pos (m k : Nat) : 0 < (Parts.finite false (m + 1) k).rank :=
  Int.natCast_pos.2 (by omega)

theorem rank_neg (m k : Nat) : (Parts.finite true (m + 1) k).rank < 0 :=
  Int.neg_neg_of_pos (rank_pos m k)

theorem compare_finite (h : Magnitude m k) (h' : Magnitude m' k') (s t : Bool) :
    (Parts.finite s m k).unpacked.compare (Parts.finite t m' k').unpacked =
      some (compare (Parts.finite s m k).rank (Parts.finite t m' k').rank) := by
  match m, m' with
  | 0, 0 =>
    rw [h.rank_zero, h'.rank_zero]
    rfl
  | 0, m' + 1 =>
    rw [h.rank_zero]
    cases t with
    | false => exact congrArg some (compare_lt_iff_lt.2 (rank_pos m' k')).symm
    | true => exact congrArg some (compare_gt_iff_gt.2 (rank_neg m' k')).symm
  | m + 1, 0 =>
    rw [h'.rank_zero]
    cases s with
    | false => exact congrArg some (compare_gt_iff_gt.2 (rank_pos m k)).symm
    | true => exact congrArg some (compare_lt_iff_lt.2 (rank_neg m k)).symm
  | m + 1, m' + 1 =>
    have bits := h.compare h'
    match s, t with
    | false, false =>
      refine congrArg some (bits.trans (compare_congr ?_ ?_))
      · exact Int.ofNat_lt.symm
      · exact Int.ofNat_lt.symm
    | true, true =>
      refine congrArg some ((congrArg Ordering.swap bits).trans ?_)
      rw [Nat.compare_swap]
      refine compare_congr ?_ ?_
      · exact Int.ofNat_lt.symm.trans Int.neg_lt_neg_iff.symm
      · exact Int.ofNat_lt.symm.trans Int.neg_lt_neg_iff.symm
    | false, true =>
      exact congrArg some (compare_gt_iff_gt.2 ((rank_neg m' k').trans (rank_pos m k))).symm
    | true, false =>
      exact congrArg some (compare_lt_iff_lt.2 ((rank_neg m k).trans (rank_pos m' k'))).symm

/-- The infinities lie beyond the finite floats. -/
theorem Magnitude.rank_bounds (h : Magnitude m k) (negative : Bool) :
    (Parts.infinite true).rank < (Parts.finite negative m k).rank ∧
      (Parts.finite negative m k).rank < (Parts.infinite false).rank := by
  have below := bits_lt_infinityBits h
  cases negative <;> simp only [Parts.rank, withSign] <;> omega

theorem compare_infinite_finite (h : Magnitude m k) (s t : Bool) :
    (Parts.infinite s).unpacked.compare (Parts.finite t m k).unpacked =
      some (compare (Parts.infinite s).rank (Parts.finite t m k).rank) := by
  obtain ⟨low, high⟩ := h.rank_bounds t
  cases s with
  | false =>
    rw [compare_gt_iff_gt.2 high]
    cases m <;> rfl
  | true =>
    rw [compare_lt_iff_lt.2 low]
    cases m <;> rfl

theorem compare_finite_infinite (h : Magnitude m k) (s t : Bool) :
    (Parts.finite s m k).unpacked.compare (Parts.infinite t).unpacked =
      some (compare (Parts.finite s m k).rank (Parts.infinite t).rank) := by
  obtain ⟨low, high⟩ := h.rank_bounds s
  cases t with
  | false =>
    rw [compare_lt_iff_lt.2 high]
    cases m <;> rfl
  | true =>
    rw [compare_gt_iff_gt.2 low]
    cases m <;> rfl

/-- Numbers compare like their ranks. -/
theorem Parts.Numeric.compare {p q : Parts} (hp : p.Numeric) (hq : q.Numeric) :
    p.unpacked.compare q.unpacked = some (Ord.compare p.rank q.rank) := by
  cases hp with
  | infinite s =>
    cases hq with
    | infinite t => cases s <;> cases t <;> rfl
    | finite t magnitude => exact compare_infinite_finite magnitude s t
  | finite s magnitude =>
    cases hq with
    | infinite t => exact compare_finite_infinite magnitude s t
    | finite t magnitude' => exact compare_finite magnitude magnitude' s t

/-! ## Comparison of floats -/

namespace Binary64

variable {x y : Float}

theorem isNaN_unpacked : (parts x).unpacked.isNaN = x.isNaN := by
  rw [parts, ← unpack_eq_unpacked]
  rfl

theorem numeric_parts (number : x.isNaN = false) : (parts x).Numeric := by
  rw [← isNaN_unpacked] at number
  cases shape : parts x with
  | nan =>
    rw [shape] at number
    cases number
  | infinite negative => exact .infinite negative
  | finite negative m k => exact .finite negative (magnitude_of_parts shape)

/-- The place of a float among all floats, counted from zero. -/
def rank (x : Float) : Int := (parts x).rank

theorem compare_unpack (hx : x.isNaN = false) (hy : y.isNaN = false) :
    (UnpackedFloat.unpack .binary64 x.toBits.toBitVec).compare
      (UnpackedFloat.unpack .binary64 y.toBits.toBitVec) = some (compare (rank x) (rank y)) := by
  rw [unpack_eq_unpacked, unpack_eq_unpacked]
  exact (numeric_parts hx).compare (numeric_parts hy)

theorem lt_iff_rank_lt (hx : x.isNaN = false) (hy : y.isNaN = false) : x < y ↔ rank x < rank y := by
  have native : x < y ↔ (UnpackedFloat.unpack .binary64 x.toBits.toBitVec).compare
      (UnpackedFloat.unpack .binary64 y.toBits.toBitVec) == some .lt := decide_eq_true_iff
  rw [native, compare_unpack hx hy, beq_iff_eq, Option.some_inj, compare_lt_iff_lt]

theorem beq_iff_rank_eq (hx : x.isNaN = false) (hy : y.isNaN = false) :
    x == y ↔ rank x = rank y := by
  have native : (x == y) = ((UnpackedFloat.unpack .binary64 x.toBits.toBitVec).compare
      (UnpackedFloat.unpack .binary64 y.toBits.toBitVec) == some .eq) := rfl
  rw [native, compare_unpack hx hy, beq_iff_eq, Option.some_inj, compare_eq_iff_eq]

/-! ## Floats of given bits -/

variable {bits : Nat}

/-- Bits up to those of infinity are the bits of numbers, and their rank. -/
theorem partsOfBits_of_le (bound : bits ≤ infinityBits) (negative : Bool) :
    (partsOfBits negative bits).Numeric ∧
      (partsOfBits negative bits).rank = withSign negative bits := by
  cases shape : partsOfBits negative bits with
  | nan =>
    unfold partsOfBits at shape
    rw [if_neg (Nat.not_lt.2 bound)] at shape
    split at shape
    · cases shape
    · split at shape <;> cases shape
  | infinite negative' =>
    unfold partsOfBits at shape
    rw [if_neg (Nat.not_lt.2 bound)] at shape
    split at shape
    · rename_i all
      cases shape
      exact ⟨.infinite negative, by rw [all]; rfl⟩
    · split at shape <;> cases shape
  | finite negative' m k =>
    obtain ⟨rfl, sum, magnitude⟩ := partsOfBits_finite shape
    exact ⟨.finite negative magnitude, by rw [← sum]; rfl⟩

theorem toBits_ofBits {w : UInt64} (number : w.toNat % pow2 63 ≤ infinityBits) :
    (Float.ofBits w).toBits = w := by
  have regular : ¬ @isNaNBits .binary64 w.toBitVec = true := by
    rw [isNaNBits, decide_eq_true_eq, not_and, not_not, exponent_eq_ones_iff, mantissa_eq_zero_iff]
    intro ones
    rw [Nat.le_antisymm number ones]
    rfl
  refine UInt64.toBitVec_inj.1 ?_
  exact (@pack_unpack .binary64 w.toBitVec (by decide)).trans (if_neg regular)

theorem parts_ofBits (bound : bits ≤ infinityBits) (negative : Bool) :
    parts (ofBits negative bits) = partsOfBits negative bits := by
  have small : bits < 2 ^ 63 := Nat.lt_of_le_of_lt bound (by decide)
  have word : (UInt64.ofNat (bits + if negative then pow2 63 else 0)).toNat =
      bits + if negative then pow2 63 else 0 := by
    rw [show pow2 63 = 2 ^ 63 from rfl]
    refine UInt64.toNat_ofNat_of_lt' ?_
    rw [UInt64.size]
    split <;> omega
  have magnitude : (bits + if negative then pow2 63 else 0) % pow2 63 = bits := by
    rw [show pow2 63 = 2 ^ 63 from rfl]
    split <;> omega
  have top : decide (pow2 63 ≤ bits + if negative then pow2 63 else 0) = negative := by
    rw [show pow2 63 = 2 ^ 63 from rfl]
    cases negative with
    | false => exact decide_eq_false (by simpa using small)
    | true => exact decide_eq_true (Nat.le_add_left _ _)
  rw [parts, ofBits, toBits_ofBits (by rw [word, magnitude]; exact bound)]
  simp only [word, magnitude, top]

theorem rank_ofBits (bound : bits ≤ infinityBits) (negative : Bool) :
    rank (ofBits negative bits) = withSign negative bits := by
  rw [rank, parts_ofBits bound, (partsOfBits_of_le bound negative).2]

theorem isNaN_ofBits (bound : bits ≤ infinityBits) (negative : Bool) :
    (ofBits negative bits).isNaN = false := by
  rw [← isNaN_unpacked, parts_ofBits bound]
  exact (partsOfBits_of_le bound negative).1.isNaN_unpacked

/-! ## Rounding -/

variable {a b den : Nat}

theorem roundDiv_le_roundDiv (le : a ≤ b) : roundDiv a den ≤ roundDiv b den := by
  have floor : a / den ≤ b / den := Nat.div_le_div_right le
  rcases Nat.lt_or_eq_of_le floor with less | same
  · have upper : roundDiv a den ≤ a / den + 1 := by
      simp only [roundDiv]
      split_ifs <;> omega
    have lower : b / den ≤ roundDiv b den := by
      simp only [roundDiv]
      split_ifs <;> omega
    omega
  · have first := Nat.div_add_mod' a den
    have second := Nat.div_add_mod' b den
    rw [same] at first
    simp only [roundDiv, same]
    split_ifs <;> omega

theorem roundDiv_mul (positive : 0 < den) (m : Nat) : roundDiv (m * den) den = m :=
  roundDiv_of_nearest ⟨by omega, by omega, by omega⟩ positive

/-- A number lies below the end of its binade. -/
theorem le_of_log2 (positive : 0 < den) :
    a ≤ pow2 53 * (den * pow2 ((a / den).log2 - 52)) := by
  have below : a / den < pow2 ((a / den).log2 - 52 + 53) :=
    Nat.lt_of_lt_of_le Nat.lt_log2_self (pow2_le (by omega))
  rw [Nat.div_lt_iff_lt_mul positive, pow2_add] at below
  calc a ≤ pow2 ((a / den).log2 - 52) * pow2 53 * den := below.le
    _ = pow2 53 * (den * pow2 ((a / den).log2 - 52)) := by ring

/-- A number lies above the beginning of its binade, except in the lowest. -/
theorem le_of_lt_log2 (positive : 0 < den) (normal : 52 < (a / den).log2) :
    pow2 52 * (den * pow2 ((a / den).log2 - 52)) ≤ a := by
  have nonzero : a / den ≠ 0 := by
    intro zero
    rw [zero] at normal
    cases normal
  have above : pow2 ((a / den).log2 - 52 + 52) ≤ a / den :=
    Nat.le_trans (pow2_le (by omega)) (Nat.log2_self_le nonzero)
  rw [Nat.le_div_iff_mul_le positive, pow2_add] at above
  calc pow2 52 * (den * pow2 ((a / den).log2 - 52))
      = pow2 ((a / den).log2 - 52) * pow2 52 * den := by ring
    _ ≤ a := above

theorem bitsOfRatio_le_bitsOfRatio (positive : 0 < den) (le : a ≤ b) :
    bitsOfRatio a den ≤ bitsOfRatio b den := by
  have units : a * pow2 1074 ≤ b * pow2 1074 := Nat.mul_le_mul_right _ le
  simp only [bitsOfRatio]
  generalize a * pow2 1074 = u at *
  generalize b * pow2 1074 = v at *
  have binade : (u / den).log2 ≤ (v / den).log2 := by
    rw [Nat.log2_eq_log_two, Nat.log2_eq_log_two]
    exact Nat.log_mono_right (Nat.div_le_div_right units)
  refine min_le_min_right _ ?_
  rcases Nat.lt_or_eq_of_le (Nat.sub_le_sub_right binade 52) with lower | same
  · -- What is rounded up out of a binade comes to the beginning of the next one at most.
    have below := le_of_log2 (a := u) positive
    have above := le_of_lt_log2 (a := v) positive (by omega)
    generalize (u / den).log2 - 52 = j at *
    generalize (v / den).log2 - 52 = k at *
    have upper : roundDiv u (den * pow2 j) ≤ pow2 53 := by
      rw [← roundDiv_mul (Nat.mul_pos positive (pow2_pos j)) (pow2 53)]
      exact roundDiv_le_roundDiv below
    have least : pow2 52 ≤ roundDiv v (den * pow2 k) := by
      rw [← roundDiv_mul (Nat.mul_pos positive (pow2_pos k)) (pow2 52)]
      exact roundDiv_le_roundDiv above
    have step : (j + 1) * pow2 52 ≤ k * pow2 52 := Nat.mul_le_mul_right _ lower
    rw [Nat.succ_mul] at step
    rw [pow2_fiftythree] at upper
    omega
  · rw [same]
    exact Nat.add_le_add_left (roundDiv_le_roundDiv units) _

theorem rank_ofInt (n : Int) : rank (ofInt n) = withSign (n < 0) (bitsOfRatio n.natAbs 1) :=
  rank_ofBits (Nat.min_le_right _ _) _

theorem isNaN_ofInt (n : Int) : (ofInt n).isNaN = false := isNaN_ofBits (Nat.min_le_right _ _) _

/-- The nearest floats of integers are in their order. -/
theorem rank_ofInt_le {a b : Int} (le : a ≤ b) : rank (ofInt a) ≤ rank (ofInt b) := by
  rw [rank_ofInt, rank_ofInt]
  by_cases lower : a < 0
  · by_cases higher : b < 0
    · have bits : bitsOfRatio b.natAbs 1 ≤ bitsOfRatio a.natAbs 1 :=
        bitsOfRatio_le_bitsOfRatio (by decide) (by omega)
      simp only [lower, higher, decide_true, withSign]
      omega
    · simp only [lower, higher, decide_true, decide_false, withSign]
      omega
  · have bits : bitsOfRatio a.natAbs 1 ≤ bitsOfRatio b.natAbs 1 :=
      bitsOfRatio_le_bitsOfRatio (by decide) (by omega)
    simp only [lower, show ¬ b < 0 by omega, decide_false, withSign]
    omega

end Binary64

end Stepper.Number
