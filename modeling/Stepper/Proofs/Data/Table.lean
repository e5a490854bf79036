/-
  What is found in a table.

  A table made of a list of entries holds of each name the last entry
  (`find?_insertAll`), which is the only one if no name occurs twice
  (`find?_insertAll_of_nodup`).
-/
import Stepper.Data.Table

namespace Stepper.Data.Table

variable {α : Type} {name : String} {t : Table α} {entries : List (String × α)}

theorem find?_append (name : String) (t more : Table α) :
    find? name (t ++ more) = (find? name t).or (find? name more) := by
  induction t with
  | nil => rfl
  | cons entry t ih =>
    obtain ⟨other, a⟩ := entry
    rw [List.cons_append, find?, find?]
    split
    · rfl
    · exact ih

theorem find?_insertAll (name : String) (entries : List (String × α)) (t : Table α) :
    find? name (insertAll entries t) = (find? name entries.reverse).or (find? name t) := by
  induction entries generalizing t with
  | nil => rfl
  | cons entry entries ih =>
    obtain ⟨other, a⟩ := entry
    rw [insertAll, List.foldl_cons, List.reverse_cons, find?_append]
    refine (ih (insert other a t)).trans ?_
    rw [find?_insert, Option.or_assoc]
    congr 1
    rw [find?]
    split
    · rfl
    · rfl

theorem find?_eq_none_of_notMem (absent : name ∉ names t) : find? name t = none := by
  cases found : find? name t with
  | none => rfl
  | some a => exact absurd (mem_names_iff.2 ⟨a, found⟩) absent

theorem find?_eq_some_iff_of_nodup {a : α} (nodup : (names t).Nodup) :
    find? name t = some a ↔ (name, a) ∈ t := by
  induction t with
  | nil => exact iff_of_false (Option.some_ne_none a).symm List.not_mem_nil
  | cons entry t ih =>
    obtain ⟨other, b⟩ := entry
    obtain ⟨first, others⟩ := List.nodup_cons.1 nodup
    rw [find?, List.mem_cons, Prod.mk.injEq]
    split
    · rename_i same
      subst same
      constructor
      · rintro ⟨⟩
        exact .inl ⟨rfl, rfl⟩
      · rintro (⟨-, rfl⟩ | mem)
        · rfl
        · exact absurd (List.mem_map.2 ⟨_, mem, rfl⟩) first
    · rename_i different
      rw [ih others]
      exact ⟨.inr, fun mem => mem.resolve_left fun own => different own.1⟩

/-- Of a name that occurs once there is no last entry other than the first. -/
theorem find?_reverse (nodup : (names t).Nodup) : find? name t.reverse = find? name t := by
  induction t with
  | nil => rfl
  | cons entry t ih =>
    obtain ⟨other, a⟩ := entry
    obtain ⟨first, others⟩ := List.nodup_cons.1 nodup
    rw [List.reverse_cons, find?_append, ih others, find?]
    split
    · rename_i same
      rw [same, find?_eq_none_of_notMem first, find?, if_pos rfl]
      rfl
    · rename_i different
      rw [find?, Option.or_none, find?, if_neg different]

theorem find?_insertAll_of_nodup (nodup : (names entries).Nodup) (t : Table α) :
    find? name (insertAll entries t) = (find? name entries).or (find? name t) := by
  rw [find?_insertAll, find?_reverse nodup]

/-- What holds of all entries that are put in holds of those that are there. -/
theorem forall_mem_insertAll {p : String × α → Prop} (each : ∀ entry ∈ entries, p entry)
    (all : ∀ entry ∈ t, p entry) : ∀ entry ∈ insertAll entries t, p entry := by
  induction entries generalizing t with
  | nil => exact all
  | cons entry entries ih =>
    obtain ⟨name, a⟩ := entry
    obtain ⟨first, others⟩ := List.forall_mem_cons.1 each
    refine ih others ?_
    intro entry mem
    rcases mem_insert mem with rfl | mem
    · exact first
    · exact all entry mem

theorem Ordered.insertAll (h : Ordered t) (entries : List (String × α)) :
    Ordered (Table.insertAll entries t) := by
  induction entries generalizing t with
  | nil => exact h
  | cons entry entries ih => exact ih h.insert

/-- Names that ascend differ. -/
theorem Ordered.nodup (h : Ordered t) : (names t).Nodup := by
  rw [names, List.nodup_iff_pairwise_ne, List.pairwise_map]
  refine h.imp ?_
  intro a b before same
  rw [same] at before
  exact String.lt_irrefl _ before

end Stepper.Data.Table
