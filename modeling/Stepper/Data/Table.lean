/-
  Tables: entries under distinct names, in the order of the names.

  Names are ordered by code point, which is also the order of their UTF-8
  bytes.  What an operation does to the entry under a name is said by
  `find?_insert` and `find?_erase`.  Every operation keeps the order
  (`Ordered.insert`, `Ordered.erase`), so no name occurs twice.
-/
namespace Stepper.Data

/-- Named entries. -/
abbrev Table (α : Type) := List (String × α)

namespace Table

variable {α : Type}

/-- The entry under a name. -/
def find? (name : String) : Table α → Option α
  | [] => none
  | (name', a) :: rest => if name = name' then some a else find? name rest

/-- Puts an entry under a name, in place of one that is there. -/
def insert (name : String) (a : α) : Table α → Table α
  | [] => [(name, a)]
  | (name', b) :: rest =>
    if name < name' then (name, a) :: (name', b) :: rest
    else if name = name' then (name, a) :: rest
    else (name', b) :: insert name a rest

/-- Removes the entry under a name. -/
def erase (name : String) (t : Table α) : Table α := t.filter (·.1 != name)

/-- The names. -/
def names (t : Table α) : List String := t.map (·.1)

/-- Puts entries in, one after another. -/
def insertAll (entries : List (String × α)) (t : Table α) : Table α :=
  entries.foldl (fun t (name, a) => insert name a t) t

/-! ## Looking up -/

theorem find?_insert (name other : String) (a : α) (t : Table α) :
    find? other (insert name a t) = if other = name then some a else find? other t := by
  induction t with
  | nil => rfl
  | cons b rest ih =>
    obtain ⟨name', b⟩ := b
    by_cases h : other = name
    · rw [if_pos h] at ih ⊢
      subst h
      simp only [insert]
      split
      · rw [find?, if_pos rfl]
      · split
        · rw [find?, if_pos rfl]
        · rename_i different
          rw [find?, if_neg different, ih]
    · rw [if_neg h] at ih ⊢
      simp only [insert]
      split
      · rw [find?, if_neg h]
      · split
        · rename_i same
          rw [find?, find?, if_neg h, if_neg (same ▸ h)]
        · rw [find?, find?, ih]

theorem find?_erase (name other : String) (t : Table α) :
    find? other (erase name t) = if other = name then none else find? other t := by
  induction t with
  | nil => simp [erase, find?]
  | cons b rest ih =>
    obtain ⟨name', b⟩ := b
    rw [erase] at ih ⊢
    by_cases h : name' = name
    · rw [List.filter_cons_of_neg (by simp [h]), ih, find?]
      split
      · rfl
      · rename_i different
        rw [if_neg (h ▸ different)]
    · rw [List.filter_cons_of_pos (by simp [h]), find?, find?, ih]
      split
      · rename_i same
        rw [if_neg (same ▸ h)]
      · rfl

theorem mem_names_iff {name : String} {t : Table α} :
    name ∈ names t ↔ ∃ a, find? name t = some a := by
  induction t with
  | nil => simp [names, find?]
  | cons b rest ih =>
    obtain ⟨name', b⟩ := b
    have names_cons : names ((name', b) :: rest) = name' :: names rest := rfl
    rw [names_cons, List.mem_cons, ih, find?]
    by_cases h : name = name' <;> simp [h]

/-! ## Order -/

/-- The names ascend strictly. -/
def Ordered (t : Table α) : Prop := t.Pairwise fun a b => a.1 < b.1

theorem Ordered.nil : Ordered ([] : Table α) := List.Pairwise.nil

theorem mem_insert {name : String} {a : α} {e : String × α} {t : Table α}
    (h : e ∈ insert name a t) : e = (name, a) ∨ e ∈ t := by
  induction t with
  | nil => simpa [insert] using h
  | cons b rest ih =>
    obtain ⟨name', b⟩ := b
    simp only [insert] at h
    split at h
    · simpa using h
    · split at h
      · rcases List.mem_cons.1 h with h | h
        · exact Or.inl h
        · exact Or.inr (List.mem_cons_of_mem _ h)
      · rcases List.mem_cons.1 h with h | h
        · exact Or.inr (h ▸ List.mem_cons_self)
        · exact (ih h).imp id (List.mem_cons_of_mem _)

theorem Ordered.insert {name : String} {a : α} {t : Table α} (h : Ordered t) :
    Ordered (t.insert name a) := by
  induction t with
  | nil => exact List.pairwise_singleton _ _
  | cons b rest ih =>
    obtain ⟨name', b⟩ := b
    have ⟨first, others⟩ := List.pairwise_cons.1 h
    rw [Table.insert]
    split
    · rename_i before
      refine List.pairwise_cons.2 ⟨?_, h⟩
      intro e he
      rcases List.mem_cons.1 he with rfl | he
      · exact before
      · exact String.lt_trans before (first e he)
    · rename_i notBefore
      split
      · rename_i same
        subst same
        exact List.pairwise_cons.2 ⟨first, others⟩
      · rename_i different
        refine List.pairwise_cons.2 ⟨?_, ih others⟩
        intro e he
        rcases mem_insert he with rfl | he
        · exact Std.lt_of_le_of_ne (String.not_lt.1 notBefore) (fun h => different h.symm)
        · exact first e he

theorem Ordered.erase {name : String} {t : Table α} (h : Ordered t) : Ordered (t.erase name) :=
  List.Pairwise.filter _ h

end Table

end Stepper.Data
