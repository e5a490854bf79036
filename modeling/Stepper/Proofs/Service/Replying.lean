/-
  How a breakpoint goes on.

  An evaluation that stands at a breakpoint (`At`) is led on by its own steps,
  by replies, and by connections that accept messages again: it `Leads` to
  whatever some of these actions bring about.  A reply that `Continues` the
  breakpoint leads to a further prompt (`At.leads_to_asking`), and a prompt to
  any answer that a client may give (`At.leads_to_answered`).

  What an evaluation may do where it stands is often `Fading`: the others take
  it away, by their replies and by cancelling, but never give it
  (`Fading.of_act`).
-/
import Stepper.Proofs.Eval.Cancellation
import Stepper.Proofs.Service.Keys

namespace Stepper.Debug

open Stepper.Eval

/-! ## Replies -/

/-- Whether a breakpoint goes on with another prompt after a reply. -/
def Hit.Continues (hit : Hit) (d : Debugger) : Ask → Except Error Reply → Prop
  | .command, .ok (.command c) => c = .inject ∨ c = .eval
  | .eval, .ok (.expression form) =>
    hit.evaluate form (d.isTripped hit.ticket) ≠ .error .cancelled
  | _, _ => False

/-- What is asked for after a reply, if the breakpoint goes on. -/
def Ask.following : Ask → Except Error Reply → Ask
  | .command, .ok (.command .inject) => .inject
  | .command, .ok (.command .eval) => .eval
  | _, _ => .command

variable {d d' : Debugger} {hit : Hit}

theorem Hit.Continues.of_tripped {ask : Ask} {reply : Except Error Reply}
    (h : hit.Continues d' ask reply)
    (tripped : d.isTripped hit.ticket = true → d'.isTripped hit.ticket = true) :
    hit.Continues d ask reply := by
  rcases reply with e | c | form
  · cases ask <;> exact h
  · cases ask <;> exact h
  · cases ask with
    | command | inject => exact h
    | eval =>
      simp only [Continues] at h ⊢
      cases before : d.isTripped hit.ticket with
      | true => exact tripped before ▸ h
      | false => exact Snapshot.evaluateForm_ne_cancelled _ _ _

theorem Hit.Continues.ne_inject {ask : Ask} {reply : Except Error Reply}
    (h : hit.Continues d ask reply) : ask ≠ .inject := by
  rintro rfl
  rcases reply with e | c | form <;> exact h

theorem Hit.Continues.goes {ask : Ask} {reply : Except Error Reply} (h : hit.Continues d ask reply)
    (dialog : Dialog) :
    ∃ shown, Goes hit d (.answered dialog ask reply)
      (.asking ⟨dialog.client, shown⟩ (ask.following reply)) d := by
  rcases reply with e | c | form
  · cases ask <;> exact h.elim
  · cases ask with
    | inject | eval => exact h.elim
    | command =>
      rcases h with rfl | rfl
      · exact ⟨dialog.shown, .inject⟩
      · exact ⟨dialog.shown, .eval⟩
  · cases ask with
    | command | inject => exact h.elim
    | eval => exact ⟨_, .show h⟩

/-- Some reply makes a breakpoint go on, though the evaluation has been
    cancelled. -/
theorem Hit.exists_continues (hit : Hit) (d : Debugger) {ask : Ask} (h : ask ≠ .inject) :
    ∃ text reply, Reply.parse ask.kind text = reply ∧ hit.Continues d ask reply ∧
      ask.following reply ≠ .inject := by
  cases ask with
  | command => exact ⟨"eval", _, rfl, .inr rfl, by decide⟩
  | inject => exact absurd rfl h
  | eval =>
    refine ⟨"nil", .ok (.expression .nil), rfl, ?_, by decide⟩
    intro same
    cases same

theorem Network.accepts_setRefusing (net : Network) (connection : Nat) :
    (net.setRefusing connection false).accepts connection = true := by
  simp [Network.accepts, Network.setRefusing]

namespace Service

variable {s t : Service} {i : Nat} {next : Result → Run Result}

/-! ## What evaluations may do -/

/-- Something that an evaluation may do at a breakpoint, and that nobody else
    enables it to do. -/
structure Fading (May : Evaluation → Debugger → Prop) : Prop where
  running : ∀ {ticket session rest d}, ¬ May ⟨ticket, session, .running rest⟩ d
  others : ∀ {e d d'}, May e d' → (d.isTripped e.ticket = true → d'.isTripped e.ticket = true) →
    (∀ key, e.stage.held? = some key → d'.reply? key = d.reply? key ∨ d.reply? key = none) →
    May e d

/-- What no step of its own enables an evaluation to do, it might have done
    before. -/
theorem Fading.of_act {May : Evaluation → Debugger → Prop} (fading : Fading May) (keyed : s.Keyed)
    {a : Action} {f : Evaluation}
    (own : ∀ {e stage d}, s.evaluations[i]? = some e → Steps e s.debugger e.stage stage d →
      May { e with stage } d → May e s.debugger)
    (there : (s.act a).evaluations[i]? = some f) (may : May f (s.act a).debugger) :
    ∃ e, s.evaluations[i]? = some e ∧ e.session = f.session ∧ May e s.debugger := by
  cases here : s.evaluations[i]? with
  | none =>
    -- it has just started, and stands at no breakpoint
    have own' : (s.act a).session? i = some f.session := by rw [session?, there, Option.map_some]
    rcases session?_act own' with before | ⟨code, rfl⟩
    · rw [session?, here] at before
      cases before
    · rw [act, evaluation_append] at there
      split at there
      · rw [← Option.some_inj.1 there] at may
        exact absurd may fading.running
      · rw [here] at there
        cases there
  | some e =>
    refine ⟨e, rfl, ?_⟩
    by_cases moves : Moves i a
    · rcases moved_of_act here moves with idle | ⟨stage, d, steps, moved⟩
      · rw [idle] at there may
        rw [here] at there
        cases there
        exact ⟨rfl, may⟩
      · rw [moved, evaluation_moved here, if_pos rfl] at there
        cases there
        rw [moved] at may
        refine ⟨rfl, ?_⟩
        rcases steps with steps | expires
        · exact own here steps may
        · generalize e.stage = before at expires
          cases expires
          exact absurd may fading.running
    · rw [evaluation_act here moves] at there
      cases there
      refine ⟨rfl, fading.others may isTripped_of_isTripped fun key hold => ?_⟩
      exact reply?_act keyed ((held?_eq (stage?_eq here)).trans hold) moves

/-! ## At a breakpoint -/

/-- The `i`-th evaluation stands at a breakpoint. -/
def At (s : Service) (i : Nat) (hit : Hit) (next : Result → Run Result) (p : Pause) : Prop :=
  s.evaluations[i]? = some ⟨hit.ticket, hit.session, .paused hit.site hit.value next p⟩

theorem At.goes {p q : Pause} (h : s.At i hit next p) (goes : Goes hit s.debugger p q d) :
    (s.act (.advance i)).At i hit next q ∧ (s.act (.advance i)).debugger = d := by
  have steps : Steps ⟨hit.ticket, hit.session, .paused hit.site hit.value next p⟩ s.debugger
      (.paused hit.site hit.value next p) (.paused hit.site hit.value next q) d := .goes goes
  rw [act_of_steps h steps]
  refine ⟨?_, rfl⟩
  rw [At, evaluation_moved h, if_pos rfl]

theorem At.leaves {p : Pause} {answer : Result} (h : s.At i hit next p)
    (leaves : Leaves hit s.debugger p answer d) :
    (s.act (.advance i)).evaluations[i]? = some ⟨hit.ticket, hit.session, .running (next answer)⟩ ∧
      (s.act (.advance i)).debugger = d := by
  have steps : Steps ⟨hit.ticket, hit.session, .paused hit.site hit.value next p⟩ s.debugger
      (.paused hit.site hit.value next p) (.running (next answer)) d := .leaves leaves
  rw [act_of_steps h steps]
  refine ⟨?_, rfl⟩
  rw [evaluation_moved h, if_pos rfl]

theorem At.stage? {p : Pause} (h : s.At i hit next p) :
    s.stage? i = some (.paused hit.site hit.value next p) := stage?_eq h

theorem At.ask? {p : Pause} (h : s.At i hit next p) : s.ask? i = p.ask? := ask?_eq h.stage?

theorem At.offers {dialog : Dialog} {ask : Ask} {key : Key}
    (h : s.At i hit next (.sending dialog ask key)) :
    (s.act (.advance i)).debugger =
      s.debugger.offer dialog.client (hit.promptBody dialog ask key) := by
  cases accepts : s.debugger.net.accepts dialog.client.connection with
  | true => exact (h.goes (.send accepts)).2
  | false => exact (h.goes (.refuse accepts)).2

/-! ## Leading on -/

/-- What leads an evaluation on. -/
def Aids (i : Nat) : Action → Prop
  | .advance j => j = i
  | .submit .. | .setRefusing .. => True
  | _ => False

/-- An evaluation can be led to where something holds. -/
def Leads (s : Service) (i : Nat) (P : Service → Prop) : Prop :=
  ∃ later, (∀ a ∈ later, Aids i a) ∧ P (s.run later)

/-- After some actions that lead it on, the evaluation stands at another place
    of the breakpoint. -/
structure Comes (s : Service) (i : Nat) (hit : Hit) (next : Result → Run Result) (p : Pause)
    (t : Service) : Prop where
  keyed : t.Keyed
  here : t.At i hit next p
  tripped : t.debugger.tripped = s.debugger.tripped

variable {P Q : Service → Prop}

theorem Leads.of_act {a : Action} (aids : Aids i a) (h : (s.act a).Leads i P) : s.Leads i P := by
  obtain ⟨later, all, holds⟩ := h
  refine ⟨a :: later, ?_, holds⟩
  rintro b (_ | ⟨_, mem⟩)
  · exact aids
  · exact all b mem

theorem Leads.refl (h : P s) : s.Leads i P := ⟨[], fun _ mem => absurd mem List.not_mem_nil, h⟩

theorem Leads.trans (h : s.Leads i P) (further : ∀ t, P t → t.Leads i Q) : s.Leads i Q := by
  obtain ⟨later, all, holds⟩ := h
  obtain ⟨more, all', holds'⟩ := further _ holds
  refine ⟨later ++ more, ?_, ?_⟩
  · intro a mem
    rcases List.mem_append.1 mem with mem | mem
    · exact all a mem
    · exact all' a mem
  · rw [run_append]
    exact holds'

theorem Leads.mono (h : s.Leads i P) (imp : ∀ t, P t → Q t) : s.Leads i Q := by
  obtain ⟨later, all, holds⟩ := h
  exact ⟨later, all, imp _ holds⟩

theorem Comes.trans {p q : Pause} {u : Service} (h : Comes s i hit next p t)
    (h' : Comes t i hit next q u) : Comes s i hit next q u :=
  ⟨h'.keyed, h'.here, h'.tripped.trans h.tripped⟩

variable {dialog : Dialog} {ask : Ask} {key : Key} {reply : Except Error Reply}

theorem Comes.isTripped {p : Pause} (h : Comes s i hit next p t) (ticket : Ticket) :
    t.debugger.isTripped ticket = s.debugger.isTripped ticket := by
  rw [Debugger.isTripped, h.tripped, Debugger.isTripped]

theorem Comes.continues {p : Pause} (h : Comes s i hit next p t)
    (continues : hit.Continues s.debugger ask reply) : hit.Continues t.debugger ask reply :=
  continues.of_tripped fun tripped => (h.isTripped _).symm.trans tripped

section

variable (keyed : s.Keyed)
include keyed

theorem At.leads_of_goes {p q : Pause} (h : s.At i hit next p) (goes : Goes hit s.debugger p q d)
    (tripped : d.tripped = s.debugger.tripped) :
    s.Leads i fun t => Comes s i hit next q t ∧ t.debugger = d := by
  obtain ⟨there, after⟩ := h.goes goes
  refine Leads.of_act (a := .advance i) rfl (.refl ⟨⟨keyed.act _, there, ?_⟩, after⟩)
  rw [after, tripped]

/-- After a reply that continues the breakpoint, another prompt is due. -/
theorem At.leads_to_asking (h : s.At i hit next (.answered dialog ask reply))
    (continues : hit.Continues s.debugger ask reply) :
    s.Leads i fun t => ∃ shown,
      Comes s i hit next (.asking ⟨dialog.client, shown⟩ (ask.following reply)) t := by
  obtain ⟨shown, goes⟩ := continues.goes dialog
  refine (h.leads_of_goes keyed goes rfl).mono ?_
  rintro t ⟨comes, -⟩
  exact ⟨shown, comes⟩

theorem At.leads_to_sending (h : s.At i hit next (.asking dialog ask)) :
    s.Leads i fun t => ∃ key,
      Comes s i hit next (.sending dialog ask key) t ∧ t.debugger.reply? key = none := by
  refine (h.leads_of_goes keyed .ask rfl).mono ?_
  rintro t ⟨comes, after⟩
  refine ⟨_, comes, ?_⟩
  rw [after, Debugger.reply?_register keyed.sound]

theorem At.leads_to_awaiting (h : s.At i hit next (.sending dialog ask key)) :
    s.Leads i fun t => Comes s i hit next (.awaiting dialog ask key) t ∧
      t.debugger.reply? key = s.debugger.reply? key := by
  -- the connection may refuse the prompt, so it is made to accept messages first
  refine Leads.of_act (a := .setRefusing dialog.client.connection false) trivial ?_
  have there : (s.act (.setRefusing dialog.client.connection false)).At i hit next
      (.sending dialog ask key) := h
  have accepts : (s.act (.setRefusing dialog.client.connection false)).debugger.net.accepts
      dialog.client.connection = true := Network.accepts_setRefusing _ _
  refine (there.leads_of_goes (keyed.act _) (.send accepts) rfl).mono ?_
  rintro t ⟨comes, after⟩
  refine ⟨⟨comes.keyed, comes.here, comes.tripped⟩, ?_⟩
  rw [after]
  rfl

theorem At.leads_of_reply (h : s.At i hit next (.awaiting dialog ask key))
    (replied : s.debugger.reply? key = some reply) :
    s.Leads i (Comes s i hit next (.answered dialog ask reply)) := by
  refine (h.leads_of_goes keyed (.take replied) rfl).mono ?_
  rintro t ⟨comes, -⟩
  exact comes

/-- A prompt that nobody has answered can be given any answer. -/
theorem At.leads_to_answered (h : s.At i hit next (.awaiting dialog ask key))
    (unanswered : s.debugger.reply? key = none) {text : String}
    (read : Reply.parse ask.kind text = reply) :
    s.Leads i (Comes s i hit next (.answered dialog ask reply)) := by
  have asked : s.ask? i = some (ask, key) := h.ask?
  have replied : (s.act (.submit key text)).debugger.reply? key = some reply := by
    rw [reply?_submit keyed asked, unanswered, Option.none_or, read]
  have there : (s.act (.submit key text)).At i hit next (.awaiting dialog ask key) := h
  refine Leads.of_act (a := .submit key text) trivial ?_
  refine (there.leads_of_reply (keyed.act _) replied).mono ?_
  rintro t comes
  exact ⟨comes.keyed, comes.here, comes.tripped⟩

/-- Who has not passed a breakpoint silently asks a client, at the latest when
    one has been attached. -/
theorem At.exists_asking (h : s.At i hit next .unskipped) :
    ∃ later client, (∀ a ∈ later, Aids i a ∨ ∃ client, a = .attach client false) ∧
      (s.run later).Keyed ∧ (s.run later).At i hit next (.asking ⟨client, none⟩ .command) := by
  cases slot : s.debugger.slot with
  | some client =>
    refine ⟨[.advance i], client, ?_, keyed.run _, (h.goes (.find slot)).1⟩
    rintro a (_ | ⟨_, mem⟩)
    · exact .inl rfl
    · cases mem
  | none =>
    have attached : (s.act (.attach ⟨0, 0⟩ false)).debugger.slot = some ⟨0, 0⟩ := by
      simp only [act, Debugger.attach, AttachmentSlot.attach, slot]
    have there : (s.act (.attach ⟨0, 0⟩ false)).At i hit next .unskipped := h
    refine ⟨[.attach ⟨0, 0⟩ false, .advance i], ⟨0, 0⟩, ?_, keyed.run _,
      (there.goes (.find attached)).1⟩
    rintro a (_ | ⟨_, _ | ⟨_, mem⟩⟩)
    · exact .inr ⟨_, rfl⟩
    · exact .inl rfl
    · cases mem

end

end Service

end Stepper.Debug
