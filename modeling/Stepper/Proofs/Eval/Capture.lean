/-
  What a snapshot keeps of the bindings it is made from.

  A binding is shadowed by a later one of the same name.  A snapshot takes the
  bindings in one after another and drops those that turn out to be shadowed;
  what it holds in the end are the bindings that are not, in their order
  (`bindings_capture`).  So it shows each name once, with the value that
  evaluation finds, and making it again, or without a shadowed binding, makes
  no difference (`shows_capture`).
-/
import Mathlib.Data.List.Dedup
import Mathlib.Data.List.Induction
import Stepper.Eval.Snapshot

namespace Stepper.Eval

/-! ## Bindings that are not shadowed -/

/-- The bindings that no later one of the same name shadows, in order. -/
def unshadowed (locals : List Binding) : List Binding :=
  locals.pwFilter fun binding later => binding.1 ≠ later.1

variable {name : String} {value : Value} {b c : Binding} {locals before after : List Binding}

/-- The names are kept where they occur last. -/
theorem names_unshadowed (locals : List Binding) :
    (unshadowed locals).map (·.1) = (locals.map (·.1)).dedup := by
  rw [List.dedup, List.pwFilter_map, unshadowed]

theorem mem_names_unshadowed :
    name ∈ (unshadowed locals).map (·.1) ↔ name ∈ locals.map (·.1) := by
  rw [names_unshadowed, List.mem_dedup]

theorem unshadowed_sublist (locals : List Binding) : (unshadowed locals).Sublist locals :=
  List.pwFilter_sublist locals

theorem forall_ne_unshadowed_iff :
    (∀ later ∈ unshadowed locals, b.1 ≠ later.1) ↔ b.1 ∉ locals.map (·.1) := by
  rw [← mem_names_unshadowed, List.mem_map, not_exists]
  exact forall_congr' fun later => by rw [not_and, eq_comm]

theorem unshadowed_cons_of_mem (h : b.1 ∈ locals.map (·.1)) :
    unshadowed (b :: locals) = unshadowed locals :=
  List.pwFilter_cons_of_neg fun last => forall_ne_unshadowed_iff.1 last h

theorem unshadowed_cons_of_notMem (h : b.1 ∉ locals.map (·.1)) :
    unshadowed (b :: locals) = b :: unshadowed locals :=
  List.pwFilter_cons_of_pos (forall_ne_unshadowed_iff.2 h)

theorem unshadowed_unshadowed (locals : List Binding) :
    unshadowed (unshadowed locals) = unshadowed locals :=
  List.pwFilter_idem

/-- What is bound last stays, and shadows what had its name. -/
theorem unshadowed_concat (locals : List Binding) (b : Binding) :
    unshadowed (locals ++ [b]) = (unshadowed locals).filter (·.1 != b.1) ++ [b] := by
  induction locals with
  | nil => rfl
  | cons c locals ih =>
    have names : (locals ++ [b]).map (·.1) = locals.map (·.1) ++ [b.1] := List.map_append
    rw [List.cons_append]
    by_cases again : c.1 ∈ locals.map (·.1)
    · have still : c.1 ∈ (locals ++ [b]).map (·.1) := by
        rw [names]
        exact List.mem_append_left _ again
      rw [unshadowed_cons_of_mem still, unshadowed_cons_of_mem again, ih]
    · rw [unshadowed_cons_of_notMem again]
      by_cases same : c.1 = b.1
      · have now : c.1 ∈ (locals ++ [b]).map (·.1) := by
          rw [names, same]
          exact List.mem_append_right _ List.mem_cons_self
        rw [unshadowed_cons_of_mem now, ih, List.filter_cons_of_neg (by simpa using same)]
      · have never : c.1 ∉ (locals ++ [b]).map (·.1) := by
          rw [names, List.mem_append, List.mem_singleton]
          exact not_or.2 ⟨again, same⟩
        rw [unshadowed_cons_of_notMem never, ih, List.filter_cons_of_pos (by simpa using same),
          List.cons_append]

/-- A binding that is shadowed does not matter to the others. -/
theorem unshadowed_drop (h : b.1 ∈ after.map (·.1)) :
    unshadowed (before ++ b :: after) = unshadowed (before ++ after) := by
  induction before with
  | nil => exact unshadowed_cons_of_mem h
  | cons c before ih =>
    have names : c.1 ∈ (before ++ b :: after).map (·.1) ↔ c.1 ∈ (before ++ after).map (·.1) := by
      simp only [List.map_append, List.map_cons, List.mem_append, List.mem_cons]
      constructor
      · rintro (mem | same | mem)
        · exact .inl mem
        · exact .inr (same ▸ h)
        · exact .inr mem
      · exact Or.imp_right .inr
    rw [List.cons_append, List.cons_append]
    by_cases again : c.1 ∈ (before ++ after).map (·.1)
    · rw [unshadowed_cons_of_mem again, unshadowed_cons_of_mem (names.2 again), ih]
    · rw [unshadowed_cons_of_notMem again, unshadowed_cons_of_notMem fun mem => again (names.1 mem),
        ih]

/-! ## Where the bindings stand -/

theorem mem_unshadowed_iff : b ∈ unshadowed locals ↔
    ∃ before after, locals = before ++ b :: after ∧ b.1 ∉ after.map (·.1) := by
  constructor
  · intro mem
    induction locals with
    | nil => cases mem
    | cons c locals ih =>
      by_cases again : c.1 ∈ locals.map (·.1)
      · rw [unshadowed_cons_of_mem again] at mem
        obtain ⟨before, after, rfl, last⟩ := ih mem
        exact ⟨c :: before, after, rfl, last⟩
      · rw [unshadowed_cons_of_notMem again] at mem
        rcases List.mem_cons.1 mem with rfl | mem
        · exact ⟨[], locals, rfl, again⟩
        · obtain ⟨before, after, rfl, last⟩ := ih mem
          exact ⟨c :: before, after, rfl, last⟩
  · rintro ⟨before, after, rfl, last⟩
    induction before with
    | nil =>
      rw [List.nil_append, unshadowed_cons_of_notMem last]
      exact List.mem_cons_self
    | cons c before ih =>
      rw [List.cons_append]
      by_cases again : c.1 ∈ (before ++ b :: after).map (·.1)
      · rw [unshadowed_cons_of_mem again]
        exact ih
      · rw [unshadowed_cons_of_notMem again]
        exact List.mem_cons_of_mem c ih

/-- Bindings keep the order in which they were made. -/
theorem pair_sublist_unshadowed_iff : [b, c].Sublist (unshadowed locals) ↔
    ∃ before between after, locals = before ++ b :: (between ++ c :: after) ∧
      b.1 ∉ (between ++ c :: after).map (·.1) ∧ c.1 ∉ after.map (·.1) := by
  constructor
  · intro stand
    induction locals with
    | nil => cases stand
    | cons first locals ih =>
      by_cases again : first.1 ∈ locals.map (·.1)
      · rw [unshadowed_cons_of_mem again] at stand
        obtain ⟨before, between, after, rfl, last⟩ := ih stand
        exact ⟨first :: before, between, after, rfl, last⟩
      · rw [unshadowed_cons_of_notMem again] at stand
        cases stand with
        | cons _ stand =>
          obtain ⟨before, between, after, rfl, last⟩ := ih stand
          exact ⟨first :: before, between, after, rfl, last⟩
        | cons_cons _ stand =>
          obtain ⟨between, after, rfl, last⟩ :=
            mem_unshadowed_iff.1 (List.singleton_sublist.1 stand)
          exact ⟨[], between, after, rfl, again, last⟩
  · rintro ⟨before, between, after, rfl, lastOfFirst, lastOfSecond⟩
    induction before with
    | nil =>
      rw [List.nil_append, unshadowed_cons_of_notMem lastOfFirst]
      refine .cons_cons b (List.singleton_sublist.2 ?_)
      exact mem_unshadowed_iff.2 ⟨between, after, rfl, lastOfSecond⟩
    | cons first before ih =>
      rw [List.cons_append]
      by_cases again : first.1 ∈ (before ++ b :: (between ++ c :: after)).map (·.1)
      · rw [unshadowed_cons_of_mem again]
        exact ih
      · rw [unshadowed_cons_of_notMem again]
        exact .cons first ih

theorem forall_bne_iff :
    (∀ b ∈ locals, (!(b.1 == name)) = true) ↔ name ∉ locals.map (·.1) := by
  rw [List.mem_map, not_exists]
  exact forall_congr' fun b => by simp

/-- The innermost binding of a name. -/
def innermost (name : String) (locals : List Binding) : Option Binding :=
  locals.reverse.find? (·.1 == name)

/-- The innermost binding of a name is the one that is not shadowed. -/
theorem innermost_eq_some_iff :
    innermost name locals = some b ↔ b ∈ unshadowed locals ∧ b.1 = name := by
  rw [mem_unshadowed_iff, innermost, List.find?_eq_some_iff_append]
  constructor
  · rintro ⟨own, after, before, split, others⟩
    cases eq_of_beq own
    refine ⟨⟨before.reverse, after.reverse, ?_, ?_⟩, rfl⟩
    · rw [← locals.reverse_reverse, split, List.reverse_append, List.reverse_cons,
        List.append_assoc, List.singleton_append]
    · rw [List.map_reverse, List.mem_reverse]
      exact forall_bne_iff.1 others
  · rintro ⟨⟨before, after, rfl, last⟩, rfl⟩
    refine ⟨beq_self_eq_true b.1, after.reverse, before.reverse, ?_, ?_⟩
    · rw [List.reverse_append, List.reverse_cons, List.append_assoc, List.singleton_append]
    · intro c mem
      exact forall_bne_iff.2 last c (List.mem_reverse.1 mem)

theorem lookup?_eq_some_iff :
    lookup? name locals = some value ↔ (name, value) ∈ unshadowed locals := by
  have found : lookup? name locals = (innermost name locals).map (·.2) := rfl
  rw [found, Option.map_eq_some_iff]
  constructor
  · rintro ⟨⟨name', value'⟩, found, rfl⟩
    obtain ⟨mem, rfl⟩ := innermost_eq_some_iff.1 found
    exact mem
  · intro mem
    exact ⟨(name, value), innermost_eq_some_iff.2 ⟨mem, rfl⟩, rfl⟩

/-! ## Snapshots -/

namespace Snapshot

theorem capture_concat (locals : List Binding) (b : Binding) :
    capture (locals ++ [b]) = (capture locals).bind b := by
  rw [capture, List.foldl_append, List.foldl_cons, List.foldl_nil, capture]

/-- A snapshot holds the bindings that are not shadowed. -/
theorem bindings_capture (locals : List Binding) :
    (capture locals).bindings = unshadowed locals := by
  induction locals using List.reverseRecOn with
  | nil => rfl
  | append_singleton locals b ih => rw [capture_concat, bind, ih, unshadowed_concat]

theorem capture_eq (locals : List Binding) : capture locals = ⟨unshadowed locals⟩ := by
  rw [← bindings_capture]

theorem mem_capture (mem : b ∈ (capture locals).bindings) : b ∈ locals := by
  rw [bindings_capture] at mem
  exact (unshadowed_sublist locals).subset mem

end Snapshot

/-- A snapshot keeps of each name the innermost binding. -/
theorem innermost_capture (name : String) (locals : List Binding) :
    innermost name (Snapshot.capture locals).bindings = innermost name locals := by
  refine Option.ext fun b => ?_
  rw [Snapshot.bindings_capture, innermost_eq_some_iff, unshadowed_unshadowed,
    innermost_eq_some_iff]

/-- A snapshot has each name where it is bound last. -/
theorem names_capture (locals : List Binding) :
    (Snapshot.capture locals).names = (locals.map (·.1)).dedup := by
  rw [Snapshot.names, Snapshot.bindings_capture, names_unshadowed]

namespace Snapshot

/-- Where no name occurs twice, a name has the value that stands with it. -/
theorem get?_eq_some_iff {s : Snapshot} (nodup : s.names.Nodup) :
    s.get? name = some value ↔ (name, value) ∈ s.bindings := by
  rw [get?, Option.map_eq_some_iff]
  constructor
  · rintro ⟨⟨name', value'⟩, found, rfl⟩
    obtain ⟨own, -⟩ := List.find?_eq_some_iff_append.1 found
    cases eq_of_beq own
    exact List.mem_of_find?_eq_some found
  · intro mem
    obtain ⟨before, after, split⟩ := List.append_of_mem mem
    rw [names, split, List.map_append, List.nodup_append] at nodup
    obtain ⟨-, -, apart⟩ := nodup
    refine ⟨(name, value), List.find?_eq_some_iff_append.2 ?_, rfl⟩
    refine ⟨beq_self_eq_true name, before, after, split, forall_bne_iff.2 fun earlier => ?_⟩
    exact apart name earlier name List.mem_cons_self rfl

/-- What a snapshot of some bindings shows. -/
structure Shows (s : Snapshot) (locals : List Binding) : Prop where
  /-- No name occurs twice. -/
  nodup : s.names.Nodup
  /-- The names are those of the bindings. -/
  mem_names : ∀ name, name ∈ s.names ↔ name ∈ locals.map (·.1)
  /-- The value of a name is that of its last binding. -/
  last : ∀ name value, s.get? name = some value ↔
    ∃ before after, locals = before ++ (name, value) :: after ∧ name ∉ after.map (·.1)
  /-- It is what evaluation finds among the bindings. -/
  found : ∀ name, s.get? name = lookup? name locals
  /-- The names stand in the order of their last bindings. -/
  order : ∀ b c, [b, c].Sublist s.bindings ↔
    ∃ before between after, locals = before ++ b :: (between ++ c :: after) ∧
      b.1 ∉ (between ++ c :: after).map (·.1) ∧ c.1 ∉ after.map (·.1)
  /-- A snapshot of what is shown shows the same. -/
  again : capture s.bindings = s
  /-- So does a snapshot that is made without a shadowed binding. -/
  without : ∀ before b after, locals = before ++ b :: after → b.1 ∈ after.map (·.1) →
    capture (before ++ after) = s

/-- A snapshot keeps exactly the bindings in sight. -/
theorem shows_capture (locals : List Binding) : (capture locals).Shows locals := by
  have nodup : (capture locals).names.Nodup := by
    rw [names_capture]
    exact List.nodup_dedup _
  constructor
  case nodup => exact nodup
  case mem_names =>
    intro name
    rw [names_capture, List.mem_dedup]
  case last =>
    intro name value
    rw [get?_eq_some_iff nodup, bindings_capture, mem_unshadowed_iff]
  case found =>
    intro name
    refine Option.ext fun value => ?_
    rw [get?_eq_some_iff nodup, bindings_capture, lookup?_eq_some_iff]
  case order =>
    intro b c
    rw [bindings_capture, pair_sublist_unshadowed_iff]
  case again => rw [capture_eq, bindings_capture, unshadowed_unshadowed, capture_eq]
  case without =>
    rintro before b after rfl shadowed
    rw [capture_eq, capture_eq, unshadowed_drop shadowed]

example : (capture [("x", .int 1), ("y", .int 2), ("x", .int 3)]).bindings =
    [("y", .int 2), ("x", .int 3)] := rfl

end Snapshot

end Stepper.Eval
