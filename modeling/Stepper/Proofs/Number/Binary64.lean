/-
  The parts of a float.

  A finite float has parts (`exists_parts`), is made of them again
  (`ofBits_of_parts`), and they keep within bounds (`Magnitude`).
-/
import Mathlib
import Stepper.Number.Binary64
import Stepper.Proofs.Number.Power

namespace Stepper.Number

/-- The magnitude of a finite float is `m · 2^k` units. -/
structure Magnitude (m k : Nat) : Prop where
  below : m < pow2 53
  full : 0 < k → pow2 52 ≤ m
  range : k ≤ 2045

namespace Binary64

variable {x : Float} {negative negative' : Bool} {m k bits : Nat}

theorem pow2_fiftythree : pow2 53 = 2 * pow2 52 := rfl

/-! ## Bits of a magnitude -/

theorem magnitude_of_subnormal (subnormal : bits < pow2 52) : Magnitude bits 0 where
  below := by
    rw [pow2_fiftythree]
    omega
  full positive := absurd positive (Nat.lt_irrefl 0)
  range := by decide

theorem magnitude_of_normal {e : Nat} (normal : (e + 1) * pow2 52 ≤ bits)
    (next : bits < (e + 1) * pow2 52 + pow2 52) (range : e ≤ 2045) :
    e * pow2 52 ≤ bits ∧ Magnitude (bits - e * pow2 52) e := by
  rw [Nat.succ_mul] at normal next
  refine ⟨by omega, ?_, fun _ => by omega, range⟩
  rw [pow2_fiftythree]
  omega

theorem partsOfBits_finite (h : partsOfBits negative' bits = .finite negative m k) :
    negative' = negative ∧ m + k * pow2 52 = bits ∧ Magnitude m k := by
  unfold partsOfBits at h
  split at h
  · cases h
  rename_i number
  split at h
  · cases h
  rename_i finite
  split at h
  · rename_i subnormal
    cases h
    exact ⟨rfl, by omega, magnitude_of_subnormal subnormal⟩
  · rename_i normal
    cases h
    have implicit : 0 < pow2 52 := pow2_pos 52
    obtain ⟨e, exponent⟩ := Nat.exists_eq_add_of_le' (Nat.div_pos (Nat.not_lt.1 normal) implicit)
    have low := Nat.div_mul_le_self bits (pow2 52)
    have next := Nat.lt_div_mul_add (a := bits) implicit
    have range : bits / pow2 52 < 2047 := by
      refine Nat.div_lt_of_lt_mul ?_
      rw [infinityBits] at number finite
      omega
    rw [exponent] at low next range ⊢
    rw [Nat.add_sub_cancel]
    obtain ⟨below, magnitude⟩ := magnitude_of_normal low next (by omega)
    exact ⟨rfl, Nat.sub_add_cancel below, magnitude⟩

/-! ## Parts of a float -/

/-- The parts of a float keep within bounds. -/
theorem magnitude_of_parts (h : parts x = .finite negative m k) : Magnitude m k :=
  (partsOfBits_finite h).2.2

/-- A finite float is made of its parts. -/
theorem ofBits_of_parts (h : parts x = .finite negative m k) :
    ofBits negative (m + k * pow2 52) = x := by
  obtain ⟨rfl, magnitude, -⟩ := partsOfBits_finite h
  have word : x.toBits.toNat < pow2 63 + pow2 63 := x.toBits.toNat_lt
  have bits : x.toBits.toNat % pow2 63 + (if pow2 63 ≤ x.toBits.toNat then pow2 63 else 0) =
      x.toBits.toNat := by
    split
    · rename_i top
      rw [Nat.mod_eq_sub_mod top, Nat.mod_eq_of_lt (by omega), Nat.sub_add_cancel top]
    · rename_i clear
      rw [Nat.mod_eq_of_lt (Nat.not_le.1 clear), Nat.add_zero]
  simp only [ofBits, magnitude, decide_eq_true_eq, bits, UInt64.ofNat_toNat, Float.ofBits_toBits]

open Float.Model UnpackedFloat in
/-- The bits of the exponent of a finite float are not all set. -/
theorem toBits_of_isFinite (finite : x.isFinite = true) :
    x.toBits.toNat % pow2 63 < infinityBits := by
  refine Nat.not_le.1 fun large => ?_
  have ones : @unpackExponent .binary64 x.toBits.toBitVec = -1#_ := by
    rw [unpackExponent_def]
    refine BitVec.eq_of_toNat_eq ?_
    rw [BitVec.extractLsb'_toNat, Nat.shiftRight_eq_div_pow]
    change x.toBits.toNat / 2 ^ 52 % 2 ^ 11 = 2047
    rw [show pow2 63 = 2 ^ 63 from rfl, show infinityBits = 2047 * 2 ^ 52 from rfl] at large
    omega
  have infinite : x.isFinite = false := by
    change (UnpackedFloat.unpack .binary64 x.toBits.toBitVec).isFinite = false
    simp only [UnpackedFloat.unpack, ones, if_true]
    split <;> rfl
  rw [finite] at infinite
  cases infinite

/-- Finite floats have parts. -/
theorem exists_parts (finite : x.isFinite = true) :
    ∃ negative m k, parts x = .finite negative m k := by
  have bound := toBits_of_isFinite finite
  rw [parts, partsOfBits, if_neg (by omega), if_neg (by omega)]
  split
  · exact ⟨_, _, _, rfl⟩
  · exact ⟨_, _, _, rfl⟩

end Binary64

end Stepper.Number
