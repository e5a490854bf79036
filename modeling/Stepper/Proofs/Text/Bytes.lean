/-
  The order of texts and of their bytes.

  Texts are ordered by code points.  Of two characters the lesser one has the
  lesser code, by a byte in which the codes differ (`diverges_utf8EncodeChar`),
  whatever follows them.  So texts are ordered like the rows of bytes that stand
  for them (`bytes_lt_iff`).
-/
import Mathlib.Tactic.SplitIfs

namespace Stepper.Text

/-- The bytes that stand for a text. -/
def bytes (s : String) : List UInt8 := s.toUTF8.data.toList

theorem bytes_eq (s : String) : bytes s = s.toList.flatMap String.utf8EncodeChar := by
  rw [bytes, String.toUTF8_eq_toByteArray, ← String.utf8Encode_toList, List.utf8Encode,
    List.toList_data_toByteArray]

/-- The first byte in which two rows differ is less in the first one. -/
inductive Diverges : List UInt8 → List UInt8 → Prop
  | here {x y : UInt8} {xs ys : List UInt8} (less : x < y) : Diverges (x :: xs) (y :: ys)
  | later {x : UInt8} {xs ys : List UInt8} (rest : Diverges xs ys) : Diverges (x :: xs) (x :: ys)

theorem diverges_cons_iff {x y : UInt8} {xs ys : List UInt8} :
    Diverges (x :: xs) (y :: ys) ↔ x < y ∨ x = y ∧ Diverges xs ys := by
  constructor
  · intro h
    cases h with
    | here less => exact .inl less
    | later rest => exact .inr ⟨rfl, rest⟩
  · rintro (less | ⟨rfl, rest⟩)
    · exact .here less
    · exact .later rest

theorem not_diverges_nil {ys : List UInt8} : ¬ Diverges [] ys := nofun

/-- What follows does not matter. -/
theorem Diverges.append_lt {xs ys : List UInt8} (h : Diverges xs ys) (us vs : List UInt8) :
    xs ++ us < ys ++ vs := by
  induction h with
  | here less => exact .rel less
  | later _ ih => exact .cons ih

theorem diverges_utf8EncodeChar {c d : Char} (less : c < d) :
    Diverges (String.utf8EncodeChar c) (String.utf8EncodeChar d) := by
  have less : c.val.toNat < d.val.toNat := less
  have bound : d.val.toNat < 64 * 64 * 64 * 8 := by
    rcases d.valid with low | ⟨-, high⟩ <;> omega
  unfold String.utf8EncodeChar
  generalize c.val.toNat = m at less
  generalize d.val.toNat = n at less bound
  -- the codes are made of the digits to base 64
  have digits : ∀ k : Nat, k / 4096 = k / 64 / 64 ∧ k / 262144 = k / 64 / 64 / 64 := fun k => by
    omega
  simp only [(digits m).1, (digits m).2, (digits n).1, (digits n).2]
  split_ifs <;>
    simp only [diverges_cons_iff, not_diverges_nil, UInt8.lt_iff_toNat_lt, ← UInt8.toNat_inj,
      UInt8.toNat_ofNat', and_false, or_false] <;>
    omega

theorem flatMap_utf8EncodeChar_lt {cs ds : List Char} (less : cs < ds) :
    cs.flatMap String.utf8EncodeChar < ds.flatMap String.utf8EncodeChar := by
  induction less with
  | nil =>
    obtain ⟨x, xs, code⟩ := List.exists_cons_of_ne_nil String.utf8EncodeChar_ne_nil
    rw [List.flatMap_cons, code]
    exact .nil
  | rel less =>
    rw [List.flatMap_cons, List.flatMap_cons]
    exact (diverges_utf8EncodeChar less).append_lt _ _
  | cons _ ih =>
    rw [List.flatMap_cons, List.flatMap_cons]
    exact List.append_left_lt ih

/-- Texts are ordered like their bytes. -/
theorem bytes_lt_iff {s t : String} : bytes s < bytes t ↔ s < t := by
  have forth : ∀ {s t : String}, s < t → bytes s < bytes t := by
    intro s t less
    rw [bytes_eq, bytes_eq]
    exact flatMap_utf8EncodeChar_lt less
  refine ⟨fun less => ?_, forth⟩
  by_cases before : s < t
  · exact before
  · have notLess : t ≤ s := String.not_lt.1 before
    by_cases same : t = s
    · subst same
      exact absurd less (List.lt_irrefl _)
    · have after : t < s := Std.lt_of_le_of_ne notLess same
      exact absurd less (List.lt_asymm (forth after))

end Stepper.Text
