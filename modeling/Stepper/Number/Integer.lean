/-
  Integers of 64 bits whose arithmetic reports what does not fit.

  `fit?` is the one place where the range is checked: `toInt_of_fit?` and
  `fit?_toInt` say that it keeps exactly the numbers of the range, so that an
  operation is the one on whole numbers followed by `fit?`.
-/
namespace Stepper.Number

/-- The 64-bit integer with the given value, if there is one. -/
def fit? (n : Int) : Option Int64 :=
  if Int64.minValue.toInt ≤ n ∧ n ≤ Int64.maxValue.toInt then some (Int64.ofInt n) else none

theorem toInt_ofInt {n : Int} (low : Int64.minValue.toInt ≤ n) (high : n ≤ Int64.maxValue.toInt) :
    (Int64.ofInt n).toInt = n := by
  rw [Int64.toInt_minValue] at low
  rw [Int64.toInt_maxValue] at high
  exact Int64.toInt_ofInt_of_le low (Int.lt_of_le_sub_one high)

theorem toInt_of_fit? {n : Int} {i : Int64} (h : fit? n = some i) : i.toInt = n := by
  unfold fit? at h
  split at h
  · rename_i range
    cases h
    exact toInt_ofInt range.1 range.2
  · cases h

theorem fit?_toInt (i : Int64) : fit? i.toInt = some i := by
  rw [fit?, if_pos ⟨i.minValue_le_toInt, i.toInt_le⟩, Int64.ofInt_toInt]

end Stepper.Number
