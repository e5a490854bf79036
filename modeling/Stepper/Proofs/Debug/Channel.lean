/-
  What the operations of the channel do to a pending prompt.

  Keys are numbered, and no two numbers give one key (`Key.nth_inj`).  A
  channel is `Sound` when its pending keys are distinct and have been given
  out, which every operation keeps; the equations `find?_register`,
  `find?_forget` and `find?_submit` say what becomes of the prompt under any
  key.
-/
import Std.Data.String.ToNat
import Stepper.Debug.Channel

namespace Stepper.Debug

open Stepper.Data Stepper.Eval

theorem Key.nth_inj {m n : Nat} (h : Key.nth m = Key.nth n) : m = n := by
  have texts : "input-" ++ toString m = "input-" ++ toString n := congrArg Key.text h
  have lists := congrArg String.toList texts
  rw [String.toList_append, String.toList_append, List.append_cancel_left_eq] at lists
  exact Nat.repr_injective (String.toList_inj.1 lists)

/-- A reply that cannot be read as what was asked for is malformed. -/
theorem malformedReply_of_parse {kind : InputKind} {text : String} {e : Error}
    (fails : Reply.parse kind text = .error e) : ∃ fault, e = .malformedReply fault := by
  cases kind with
  | command =>
    simp only [Reply.parse, Reply.parseCommand] at fails
    split at fails <;> cases fails
    exact ⟨_, rfl⟩
  | expression =>
    simp only [Reply.parse, Reply.parseExpression] at fails
    split at fails <;> cases fails
    exact ⟨_, rfl⟩

namespace Channel

variable {c : Channel} {key other : Key} {kind : InputKind} {text : String}

/-- The keys that are pending. -/
def keys (c : Channel) : List Key := c.pending.map (·.key)

/-- Whether a key has been given out. -/
def HasIssued (c : Channel) (key : Key) : Prop := ∃ n, n < c.issued ∧ key = .nth (n + 1)

/-- The pending keys are distinct and have been given out. -/
structure Sound (c : Channel) : Prop where
  nodup : c.keys.Nodup
  issued : ∀ key ∈ c.keys, c.HasIssued key

/-! ## Looking up -/

theorem key_of_find? {p : Pending} (h : c.find? key = some p) : p.key = key := by
  have := List.find?_some h
  simpa using this

theorem mem_keys_iff : key ∈ c.keys ↔ ∃ p, c.find? key = some p := by
  constructor
  · intro h
    obtain ⟨p, hp, rfl⟩ := List.mem_map.1 h
    have found : (c.find? p.key).isSome = true := by
      rw [find?, List.find?_isSome]
      exact ⟨p, hp, by simp⟩
    exact Option.isSome_iff_exists.1 found
  · rintro ⟨p, hp⟩
    exact List.mem_map.2 ⟨p, List.mem_of_find?_eq_some hp, key_of_find? hp⟩

theorem find?_eq_none_iff : c.find? key = none ↔ key ∉ c.keys := by
  rw [mem_keys_iff]
  cases c.find? key <;> simp

theorem accepts_iff : c.accepts key = true ↔ ∃ p, c.find? key = some p ∧ p.reply = none := by
  rw [accepts]
  cases c.find? key <;> simp

theorem find?_forget :
    (c.forget key).find? other = if other = key then none else c.find? other := by
  simp only [find?, forget, List.find?_filter]
  split
  · rename_i same
    subst same
    simp
  · rename_i different
    congr 1
    funext p
    by_cases h : p.key = other <;> simp_all

theorem keys_forget : (c.forget key).keys = c.keys.filter (· != key) := by
  simp [keys, forget, List.filter_map, Function.comp_def]

theorem forget_of_notMem (h : key ∉ c.keys) : c.forget key = c := by
  have all : ∀ p ∈ c.pending, (p.key != key) = true := by
    intro p mem
    rw [bne_iff_ne]
    rintro rfl
    exact h (List.mem_map_of_mem mem)
  rw [forget, List.filter_eq_self.2 all]

theorem forget_forget : (c.forget key).forget key = c.forget key := by
  refine forget_of_notMem ?_
  rw [keys_forget]
  simp

theorem find?_submit :
    (c.submit key text).find? other
      = if other = key then
          (c.find? key).map fun p => { p with reply := p.reply.or (some (Reply.parse p.kind text)) }
        else c.find? other := by
  unfold submit
  split
  · rename_i accepted
    obtain ⟨p, found, unanswered⟩ := accepts_iff.1 accepted
    have same : ((fun q : Pending => q.key == other) ∘ fun q =>
        if q.key = key then { q with reply := some (Reply.parse q.kind text) } else q)
        = fun q => q.key == other := by
      funext q
      by_cases h : q.key = key <;> simp [h]
    simp only [find?, List.find?_map, same]
    split
    · rename_i h
      subst h
      change (c.find? other).map _ = (c.find? other).map _
      rw [found, Option.map_some, Option.map_some, if_pos (key_of_find? found), unanswered]
      rfl
    · rename_i h
      change (c.find? other).map _ = c.find? other
      cases hq : c.find? other with
      | none => rfl
      | some q => rw [Option.map_some, if_neg (by rw [key_of_find? hq]; exact h)]
  · rename_i rejected
    split
    · rename_i h
      subst h
      cases hp : c.find? other with
      | none => rfl
      | some p =>
        have answered : p.reply ≠ none := fun h => rejected (accepts_iff.2 ⟨p, hp, h⟩)
        obtain ⟨reply, hr⟩ := Option.ne_none_iff_exists'.1 answered
        obtain ⟨k, kind, r⟩ := p
        simp only at hr
        rw [Option.map_some, hr, Option.some_or]
    · rfl

theorem keys_submit : (c.submit key text).keys = c.keys := by
  unfold submit
  split
  · simp only [keys, List.map_map]
    congr 1
    funext p
    by_cases h : p.key = key <;> simp [h]
  · rfl

theorem find?_register (fresh : c.nextKey ∉ c.keys) :
    (c.register kind).find? other
      = if other = c.nextKey then some ⟨c.nextKey, kind, none⟩ else c.find? other := by
  simp only [find?, register, List.find?_append]
  split
  · rename_i same
    subst same
    have : c.pending.find? (fun p => p.key == c.nextKey) = none := find?_eq_none_iff.2 fresh
    rw [this]
    simp
  · rename_i different
    have : (c.nextKey == other) = false := by simpa using fun h => different h.symm
    simp [this]

theorem keys_register : (c.register kind).keys = c.keys ++ [c.nextKey] := by
  simp [keys, register]

/-! ## Sound channels -/

theorem Sound.empty : Channel.empty.Sound := ⟨List.nodup_nil, fun _ h => by cases h⟩

theorem not_hasIssued_nextKey (c : Channel) : ¬ c.HasIssued c.nextKey := by
  rintro ⟨n, lt, same⟩
  have := Key.nth_inj same
  omega

theorem Sound.nextKey_notMem (h : c.Sound) : c.nextKey ∉ c.keys :=
  fun mem => c.not_hasIssued_nextKey (h.issued _ mem)

theorem HasIssued.register (h : c.HasIssued key) : (c.register kind).HasIssued key := by
  obtain ⟨n, lt, rfl⟩ := h
  exact ⟨n, Nat.lt_succ_of_lt lt, rfl⟩

theorem hasIssued_nextKey_register (c : Channel) (kind : InputKind) :
    (c.register kind).HasIssued c.nextKey :=
  ⟨c.issued, Nat.lt_succ_self _, rfl⟩

theorem issued_submit : (c.submit key text).issued = c.issued := by
  unfold submit
  split <;> rfl

theorem hasIssued_submit_iff : (c.submit key text).HasIssued other ↔ c.HasIssued other := by
  rw [HasIssued, issued_submit, HasIssued]

theorem Sound.register (h : c.Sound) (kind : InputKind) : (c.register kind).Sound where
  nodup := by
    rw [keys_register, List.nodup_append]
    refine ⟨h.nodup, List.pairwise_singleton _ _, ?_⟩
    intro k hk k' hk' same
    rw [List.mem_singleton] at hk'
    subst hk' same
    exact h.nextKey_notMem hk
  issued k hk := by
    rw [keys_register, List.mem_append, List.mem_singleton] at hk
    rcases hk with hk | rfl
    · exact (h.issued k hk).register
    · exact hasIssued_nextKey_register c kind

theorem Sound.forget (h : c.Sound) (key : Key) : (c.forget key).Sound where
  nodup := by
    rw [keys_forget]
    exact h.nodup.filter _
  issued k hk := by
    rw [keys_forget] at hk
    exact h.issued k (List.mem_filter.1 hk).1

theorem Sound.submit (h : c.Sound) (key : Key) (text : String) : (c.submit key text).Sound where
  nodup := by
    rw [keys_submit]
    exact h.nodup
  issued k hk := by
    rw [keys_submit] at hk
    exact hasIssued_submit_iff.2 (h.issued k hk)

/-! ## Taking a reply -/

theorem take_eq_taken_iff {reply : Except Error Reply} {c' : Channel} :
    c.take key = .taken reply c' ↔
      (∃ p, c.find? key = some p ∧ p.reply = some reply) ∧ c' = c.forget key := by
  unfold take
  split
  · rename_i h
    simp [h]
  · rename_i p h
    split
    · rename_i r hr
      simp only [h, hr, Awaited.taken.injEq, Option.some.injEq, exists_eq_left']
      exact and_congr_right fun _ => eq_comm
    · rename_i hr
      simp [h, hr]

theorem take_eq_unanswered_iff : c.take key = .unanswered ↔ c.accepts key = true := by
  rw [accepts_iff]
  unfold take
  split
  · rename_i h
    simp [h]
  · rename_i p h
    split
    · rename_i r hr
      simp [h, hr]
    · rename_i hr
      simp [h, hr]

theorem take_eq_notPending_iff : c.take key = .notPending ↔ key ∉ c.keys := by
  rw [← find?_eq_none_iff]
  unfold take
  split
  · rename_i h
    simp [h]
  · rename_i p h
    split <;> simp [h]

end Channel

end Stepper.Debug
