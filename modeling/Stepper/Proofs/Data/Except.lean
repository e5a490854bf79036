/-
  Computations that can fail.
-/
namespace Stepper

section

variable {ε α β : Type} {x : Except ε α} {b : β}

theorem map_eq_ok_iff {f : α → β} : x.map f = .ok b ↔ ∃ a, x = .ok a ∧ f a = b := by
  cases x with
  | error e => exact ⟨nofun, nofun⟩
  | ok a =>
    constructor
    · rintro ⟨⟩
      exact ⟨a, rfl, rfl⟩
    · rintro ⟨_, ⟨⟩, rfl⟩
      rfl

theorem map_eq_error_iff {f : α → β} {e : ε} : x.map f = .error e ↔ x = .error e := by
  cases x with
  | error e' =>
    constructor
    · rintro ⟨⟩
      rfl
    · rintro ⟨⟩
      rfl
  | ok a => exact ⟨nofun, nofun⟩

theorem mapError_eq_error_iff {ε' : Type} {f : ε → ε'} {e : ε'} :
    x.mapError f = .error e ↔ ∃ e', x = .error e' ∧ f e' = e := by
  cases x with
  | error e' =>
    constructor
    · rintro ⟨⟩
      exact ⟨e', rfl, rfl⟩
    · rintro ⟨_, ⟨⟩, rfl⟩
      rfl
  | ok a => exact ⟨nofun, nofun⟩

theorem bind_eq_ok_iff {f : α → Except ε β} : x >>= f = .ok b ↔ ∃ a, x = .ok a ∧ f a = .ok b := by
  cases x with
  | error e => exact ⟨nofun, nofun⟩
  | ok a =>
    constructor
    · intro h
      exact ⟨a, rfl, h⟩
    · rintro ⟨_, ⟨⟩, h⟩
      exact h

theorem bind_eq_error_iff {f : α → Except ε β} {e : ε} :
    x >>= f = .error e ↔ x = .error e ∨ ∃ a, x = .ok a ∧ f a = .error e := by
  cases x with
  | error e' =>
    constructor
    · rintro ⟨⟩
      exact .inl rfl
    · rintro (⟨⟨⟩⟩ | ⟨_, ⟨⟩, _⟩)
      rfl
  | ok a =>
    constructor
    · intro h
      exact .inr ⟨a, rfl, h⟩
    · rintro (⟨⟨⟩⟩ | ⟨_, ⟨⟩, h⟩)
      exact h

end

/-! ## Folds -/

variable {ε σ τ : Type} {f : σ → τ → Except ε σ} {a b : σ} {x : τ} {xs ys : List τ} {e : ε}

theorem foldlM_cons_ok (h : f a x = .ok b) : (x :: xs).foldlM f a = xs.foldlM f b := by
  rw [List.foldlM_cons, h]
  rfl

theorem foldlM_cons_error (h : f a x = .error e) : (x :: xs).foldlM f a = .error e := by
  rw [List.foldlM_cons, h]
  rfl

theorem foldlM_append_ok (h : xs.foldlM f a = .ok b) : (xs ++ ys).foldlM f a = ys.foldlM f b := by
  rw [List.foldlM_append, h]
  rfl

theorem foldlM_append_error (h : xs.foldlM f a = .error e) :
    (xs ++ ys).foldlM f a = .error e := by
  rw [List.foldlM_append, h]
  rfl

/-- What holds at first and is kept by every step, holds after a run. -/
theorem foldlM_invariant (inv : σ → List τ → Prop) (before : inv a [])
    (step : ∀ a b x xs, inv a xs → x ∈ ys → f a x = .ok b → inv b (xs ++ [x]))
    (ran : ys.foldlM f a = .ok b) : inv b ys := by
  have later : ∀ zs xs a, (∀ x ∈ zs, x ∈ ys) → inv a xs → zs.foldlM f a = .ok b →
      inv b (xs ++ zs) := by
    intro zs
    induction zs with
    | nil =>
      intro xs a _ kept ran
      cases ran
      rwa [List.append_nil]
    | cons z zs ih =>
      intro xs a mem kept ran
      obtain ⟨here, there⟩ := List.forall_mem_cons.1 mem
      rw [List.foldlM_cons, bind_eq_ok_iff] at ran
      obtain ⟨next, first, ran⟩ := ran
      have rest := ih (xs ++ [z]) next there (step a next z xs kept here first) ran
      rwa [List.append_assoc] at rest
  exact later ys [] a (fun _ mem => mem) before ran

/-- A run fails at the first step that fails. -/
theorem foldlM_eq_error_iff : xs.foldlM f a = .error e ↔
    ∃ before x after b, xs = before ++ x :: after ∧ before.foldlM f a = .ok b ∧
      f b x = .error e := by
  constructor
  · intro failed
    induction xs generalizing a with
    | nil => cases failed
    | cons x xs ih =>
      rw [List.foldlM_cons, bind_eq_error_iff] at failed
      rcases failed with first | ⟨next, first, failed⟩
      · exact ⟨[], x, xs, a, rfl, rfl, first⟩
      · obtain ⟨before, y, after, b, rfl, ran, last⟩ := ih failed
        exact ⟨x :: before, y, after, b, rfl, (foldlM_cons_ok first).trans ran, last⟩
  · rintro ⟨before, x, after, b, rfl, ran, last⟩
    rw [foldlM_append_ok ran, foldlM_cons_error last]

/-- A run fails at one of its steps. -/
theorem exists_of_foldlM_error (failed : xs.foldlM f a = .error e) :
    ∃ b, ∃ x ∈ xs, f b x = .error e := by
  obtain ⟨before, x, after, b, rfl, -, last⟩ := foldlM_eq_error_iff.1 failed
  exact ⟨b, x, by simp, last⟩

/-! ## Rows -/

/-- When not all results can be had, one of the computations fails. -/
theorem exists_of_mapM_error {f : σ → Except ε τ} {xs : List σ} (failed : xs.mapM f = .error e) :
    ∃ x ∈ xs, f x = .error e := by
  induction xs with
  | nil => cases failed
  | cons x xs ih =>
    rw [List.mapM_cons, bind_eq_error_iff] at failed
    rcases failed with first | ⟨b, -, failed⟩
    · exact ⟨x, List.mem_cons_self, first⟩
    · rw [bind_eq_error_iff] at failed
      rcases failed with failed | ⟨bs, -, failed⟩
      · obtain ⟨y, mem, last⟩ := ih failed
        exact ⟨y, List.mem_cons_of_mem x mem, last⟩
      · cases failed

end Stepper
