/-
  The slot and its history.

  An `Operation` is what a client or a connection does to the slot, or that a
  connection fails or works again; `Tenancy.run` does some from the beginning
  and keeps a log of what they gave.  The log tells who is attached
  (`Log.Holds`) and which messages there have been (`Told`); with it goes what
  the next operation does (`Tenancy.attested_run`).
-/
import Mathlib.Data.List.Induction
import Stepper.Debug.Attachment

namespace Stepper.Debug.AttachmentSlot

open Stepper.Data

theorem detach_eq_some_iff {slot : AttachmentSlot} {connection : Nat} {a : Attachment} :
    slot.detach connection = some a ↔ slot = some a ∧ a.connection ≠ connection := by
  cases slot with
  | none => simp [detach, heldBy]
  | some b =>
    simp only [detach, heldBy, Option.any_some, beq_iff_eq]
    split
    · rename_i own
      constructor
      · exact nofun
      · rintro ⟨⟨⟩, other⟩
        exact absurd own other
    · rename_i other
      constructor
      · rintro ⟨⟩
        exact ⟨rfl, other⟩
      · exact And.left

/-! ## Operations -/

/-- Something that concerns the slot. -/
inductive Operation where
  /-- A client asks to be attached. -/
  | attach (a : Attachment) (force : Bool)
  /-- A connection ends. -/
  | detach (connection : Nat)
  /-- A connection fails from now on, or works again. -/
  | setRefusing (connection : Nat) (on : Bool)

/-- What an operation gives. -/
inductive Answer where
  | asked (outcome : AttachOutcome)
  | detached (emptied : Bool)
  | done

/-- Operations and what they gave, oldest first. -/
abbrev Log := List (Operation × Answer)

/-- The slot and the connections, and what has been done. -/
structure Tenancy where
  slot : AttachmentSlot
  net : Network
  log : Log

namespace Tenancy

/-- Nobody is attached yet. -/
def start (net : Network) : Tenancy := ⟨none, net, []⟩

/-- Does an operation. -/
def perform (t : Tenancy) : Operation → Answer × AttachmentSlot × Network
  | .attach a force =>
    let (outcome, slot, net) := t.slot.attach t.net a force
    (.asked outcome, slot, net)
  | .detach connection => (.detached (t.slot.heldBy connection), t.slot.detach connection, t.net)
  | .setRefusing connection on => (.done, t.slot, t.net.setRefusing connection on)

/-- Does an operation and notes what it gave. -/
def act (t : Tenancy) (op : Operation) : Tenancy :=
  ⟨(t.perform op).2.1, (t.perform op).2.2, t.log ++ [(op, (t.perform op).1)]⟩

/-- Does some operations, one after another. -/
def run (net : Network) (ops : List Operation) : Tenancy := ops.foldl act (start net)

end Tenancy

/-! ## Histories -/

/-- With the entry the client is attached. -/
inductive Admits (a : Attachment) : Operation × Answer → Prop
  | attached {force} : Admits a (.attach a force, .asked .attached)
  | replaced {force previous} : Admits a (.attach a force, .asked (.replaced previous))

/-- The client was attached last, and its connection has not ended since. -/
def Log.Holds (log : Log) (a : Attachment) : Prop :=
  ∃ before e after, log = before ++ e :: after ∧ Admits a e ∧
    ∀ later ∈ after, (∀ b, ¬ Admits b later) ∧ later.1 ≠ .detach a.connection

/-- The message to a client in whose place another one is attached. -/
def notice (a : Attachment) : Json.Object :=
  [("id", .nat a.request), ("status", .strings ["done"])]

/-- The messages that come with a history: one to each client that is replaced,
    and no other. -/
inductive Told : Log → List Delivery → Prop
  | nothing : Told [] []
  | replaced {log ds} {a b : Attachment} {failed} (told : Told log ds) (holds : log.Holds b) :
    Told (log ++ [(.attach a true, .asked (.replaced b.request))])
      (ds ++ [⟨b.connection, notice b, failed⟩])
  | other {log ds op answer} (told : Told log ds)
    (unreplaced : ∀ previous, answer ≠ .asked (.replaced previous)) :
    Told (log ++ [(op, answer)]) ds

variable {log : Log} {e : Operation × Answer} {a b : Attachment} {t : Tenancy} {op : Operation}
  {net : Network}

theorem Admits.eq {force answer} (h : Admits a (.attach b force, answer)) : a = b := by
  cases h with
  | attached | replaced => rfl

theorem not_holds_nil : ¬ Log.Holds [] a := by
  rintro ⟨before, e, after, split, -⟩
  exact List.append_ne_nil_of_right_ne_nil before (List.cons_ne_nil e after) split.symm

/-- With one more entry: whom it admits, or who was attached before, if it
    admits nobody and does not end the connection. -/
theorem holds_concat : Log.Holds (log ++ [e]) a ↔
    Admits a e ∨ (log.Holds a ∧ (∀ b, ¬ Admits b e) ∧ e.1 ≠ .detach a.connection) := by
  constructor
  · rintro ⟨before, first, after, split, admits, stays⟩
    rcases List.eq_nil_or_concat after with rfl | ⟨after, last, rfl⟩
    · obtain ⟨-, same⟩ := List.append_inj' split rfl
      cases same
      exact .inl admits
    · rw [List.concat_eq_append] at split stays
      rw [← List.cons_append, ← List.append_assoc] at split
      obtain ⟨rfl, same⟩ := List.append_inj' split rfl
      cases same
      refine .inr ⟨⟨before, first, after, rfl, admits, fun later mem => ?_⟩, ?_⟩
      · exact stays later (List.mem_append_left _ mem)
      · exact stays e (List.mem_append_right _ List.mem_cons_self)
  · rintro (admits | ⟨⟨before, first, after, rfl, admits, stays⟩, silent⟩)
    · exact ⟨log, e, [], rfl, admits, nofun⟩
    · refine ⟨before, first, after ++ [e], ?_, admits, fun later mem => ?_⟩
      · rw [List.append_assoc, List.cons_append]
      · rcases List.mem_append.1 mem with mem | mem
        · exact stays later mem
        · exact List.mem_singleton.1 mem ▸ silent

/-! ## One operation -/

namespace Tenancy

theorem perform_attach_free (free : t.slot = none) (a : Attachment) (force : Bool) :
    t.perform (.attach a force) = (.asked .attached, some a, t.net) := by
  rw [perform, free]
  rfl

theorem perform_attach_kept (held : t.slot = some b) (a : Attachment) :
    t.perform (.attach a false) = (.asked (.kept b.request), t.slot, t.net) := by
  rw [perform, held]
  rfl

/-- The client that is replaced is told so, whether or not the message
    arrives. -/
theorem perform_attach_replaced (held : t.slot = some b) (a : Attachment) :
    t.perform (.attach a true) = (.asked (.replaced b.request), some a,
      t.net.offer b.connection (notice b)) := by
  rw [perform, held]
  rfl

/-- The slot changes just as `holds_concat` says of the log. -/
theorem slot_perform : (t.perform op).2.1 = some a ↔
    Admits a (op, (t.perform op).1) ∨
      (t.slot = some a ∧ (∀ b, ¬ Admits b (op, (t.perform op).1)) ∧
        op ≠ .detach a.connection) := by
  cases op with
  | attach b force =>
    cases held : t.slot with
    | none =>
      rw [perform_attach_free held]
      constructor
      · rintro ⟨⟩
        exact .inl .attached
      · rintro (admits | ⟨⟨⟩, -⟩)
        rw [admits.eq]
    | some c =>
      cases force with
      | true =>
        rw [perform_attach_replaced held]
        constructor
        · rintro ⟨⟩
          exact .inl .replaced
        · rintro (admits | ⟨-, unadmitted, -⟩)
          · rw [admits.eq]
          · exact absurd .replaced (unadmitted b)
      | false =>
        rw [perform_attach_kept held, held]
        constructor
        · intro same
          exact .inr ⟨same, nofun, nofun⟩
        · rintro (admits | ⟨same, -⟩)
          · nomatch admits
          · exact same
  | detach connection =>
    constructor
    · intro stays
      obtain ⟨held, other⟩ := detach_eq_some_iff.1 stays
      exact .inr ⟨held, nofun, fun same => other (Operation.detach.inj same).symm⟩
    · rintro (admits | ⟨held, -, other⟩)
      · nomatch admits
      · exact detach_eq_some_iff.2 ⟨held, fun same => other (congrArg _ same.symm)⟩
  | setRefusing connection on =>
    constructor
    · intro same
      exact .inr ⟨same, nofun, nofun⟩
    · rintro (admits | ⟨same, -⟩)
      · nomatch admits
      · exact same

/-- Only who replaces a client causes a message. -/
theorem perform_silent (silent : ∀ a, op = .attach a true → t.slot = none) :
    (t.perform op).2.2.offered = t.net.offered ∧
      ∀ previous, (t.perform op).1 ≠ .asked (.replaced previous) := by
  cases op with
  | attach a force =>
    cases held : t.slot with
    | none =>
      rw [perform_attach_free held]
      exact ⟨rfl, nofun⟩
    | some b =>
      cases force with
      | true => cases held.symm.trans (silent a rfl)
      | false =>
        rw [perform_attach_kept held]
        exact ⟨rfl, nofun⟩
  | detach connection => exact ⟨rfl, nofun⟩
  | setRefusing connection on => exact ⟨rfl, nofun⟩

theorem perform_detach (connection : Nat) :
    ∃ emptied, (t.perform (.detach connection)).1 = .detached emptied ∧
      (emptied = true ↔ t.slot ≠ none ∧ (t.perform (.detach connection)).2.1 = none) := by
  refine ⟨t.slot.heldBy connection, rfl, ?_⟩
  simp only [perform, detach]
  cases own : t.slot.heldBy connection with
  | true =>
    have held : t.slot ≠ none := by
      intro free
      rw [free] at own
      cases own
    exact iff_of_true rfl ⟨held, rfl⟩
  | false => exact iff_of_false nofun fun ⟨held, free⟩ => held free

/-! ## Whole runs -/

/-- The log tells who is attached and what messages there have been since the
    beginning. -/
structure Recorded (net : Network) (t : Tenancy) : Prop where
  holder (a : Attachment) : t.slot = some a ↔ t.log.Holds a
  sent : ∃ ds, t.net.offered = net.offered ++ ds ∧ Told t.log ds

theorem recorded_start (net : Network) : Recorded net (start net) where
  holder _ := ⟨nofun, fun holds => absurd holds not_holds_nil⟩
  sent := ⟨[], (List.append_nil _).symm, .nothing⟩

theorem Recorded.act (h : Recorded net t) (op : Operation) : Recorded net (t.act op) where
  holder a := by
    rw [Tenancy.act, holds_concat, slot_perform, h.holder]
  sent := by
    obtain ⟨ds, offered, told⟩ := h.sent
    by_cases silent : ∀ a, op = .attach a true → t.slot = none
    · obtain ⟨same, unreplaced⟩ := perform_silent silent
      exact ⟨ds, same.trans offered, told.other unreplaced⟩
    · simp only [not_forall] at silent
      obtain ⟨a, rfl, taken⟩ := silent
      obtain ⟨b, held⟩ := Option.ne_none_iff_exists'.1 taken
      refine ⟨ds ++ [⟨b.connection, notice b, !t.net.accepts b.connection⟩], ?_, ?_⟩
      · rw [Tenancy.act, perform_attach_replaced held, Network.offer, offered, List.append_assoc]
      · rw [Tenancy.act, perform_attach_replaced held]
        exact told.replaced ((h.holder b).1 held)

theorem recorded_run (net : Network) (ops : List Operation) : Recorded net (run net ops) := by
  induction ops using List.reverseRecOn with
  | nil => exact recorded_start net
  | append_singleton ops op ih =>
    rw [run, List.foldl_append]
    exact ih.act op

/-- What the log tells, also of the operation that comes next. -/
structure Attested (net : Network) (t : Tenancy) : Prop extends Recorded net t where
  free (a : Attachment) (force : Bool) (nobody : ∀ b, ¬ t.log.Holds b) :
    t.perform (.attach a force) = (.asked .attached, some a, t.net)
  kept (a : Attachment) {b : Attachment} (holds : t.log.Holds b) :
    t.perform (.attach a false) = (.asked (.kept b.request), some b, t.net)
  /-- Whether or not the message arrives. -/
  replaced (a : Attachment) {b : Attachment} (holds : t.log.Holds b) :
    t.perform (.attach a true) =
      (.asked (.replaced b.request), some a, t.net.offer b.connection (notice b))
  silent {op : Operation} (unreplaced : ∀ a, op = .attach a true → ∀ b, ¬ t.log.Holds b) :
    (t.perform op).2.2.offered = t.net.offered
  emptied (connection : Nat) : ∃ emptied, (t.perform (.detach connection)).1 = .detached emptied ∧
    (emptied = true ↔ t.slot ≠ none ∧ (t.perform (.detach connection)).2.1 = none)

/-- Whatever has been done, the log tells who is attached and what messages
    there have been, and what happens next. -/
theorem attested_run (net : Network) (ops : List Operation) : Attested net (run net ops) := by
  have recorded := recorded_run net ops
  generalize run net ops = t at recorded
  have vacant (nobody : ∀ b, ¬ t.log.Holds b) : t.slot = none :=
    Option.eq_none_iff_forall_not_mem.2 fun b held => nobody b ((recorded.holder b).1 held)
  exact {
    recorded with
    free := fun a force nobody => perform_attach_free (vacant nobody) a force
    kept := fun a b holds => by
      have held := (recorded.holder b).2 holds
      rw [perform_attach_kept held, held]
    replaced := fun a b holds => perform_attach_replaced ((recorded.holder b).2 holds) a
    silent := fun unreplaced => (perform_silent fun a same => vacant (unreplaced a same)).1
    emptied := perform_detach }

-- The end of a connection does not concern the client that took its place.
example : (run .empty [.setRefusing 1 true, .attach ⟨1, 7⟩ false, .attach ⟨2, 7⟩ true,
    .detach 1]).slot = some ⟨2, 7⟩ := rfl

end Tenancy

end Stepper.Debug.AttachmentSlot
