/-
  Prompts of evaluations that have been cancelled.

  An evaluation looks whether it has been cancelled when it arrives at a
  breakpoint, while it waits for a client, and when it evaluates an
  expression, but not between two prompts.  So it may prompt after its session
  has been closed: exactly when it `MayPush` where it then stands
  (`pushes_after_close_iff`).
-/
import Stepper.Proofs.Service.Closing
import Stepper.Proofs.Service.Pushes
import Stepper.Proofs.Service.Superseded

namespace Stepper.Debug

open Stepper.Eval

/-- Whether an evaluation at a breakpoint may still send a prompt, though it
    has been cancelled. -/
def Pause.MayPush (hit : Hit) (d : Debugger) : Pause → Prop
  | .admitted | .unskipped => True
  | p => ∃ a, p.MayAsk hit d a

/-- Whether an evaluation may still send a prompt, though it has been
    cancelled. -/
def Evaluation.MayPush (e : Evaluation) (d : Debugger) : Prop :=
  match e.stage with
  | .paused site value _ pause => pause.MayPush (e.hit site value) d
  | _ => False

variable {e : Evaluation} {d d' : Debugger} {hit : Hit}

theorem Goes.mayPush {p q : Pause} (goes : Goes hit d p q d')
    (tripped : d.isTripped hit.ticket = true) (h : q.MayPush hit d') : p.MayPush hit d := by
  have old : ¬ (p = .unskipped ∨ p = .unattached) → (∃ a, q.MayAsk hit d' a) →
      ∃ a, p.MayAsk hit d a := by
    rintro old ⟨a, may⟩
    exact ⟨a, goes.mayAsk (fun new => absurd new old) may⟩
  cases goes with
  | pass free | found free =>
    rw [tripped] at free
    cases free
  | unskip | find | wait => exact trivial
  | ask | send | refuse | take | inject | eval | «show» =>
    refine old ?_ h
    rintro (same | same) <;> cases same

theorem Steps.mayPush {stage : Stage} (steps : Steps e d e.stage stage d')
    (tripped : d.isTripped e.ticket = true) (h : Evaluation.MayPush { e with stage } d') :
    e.MayPush d := by
  obtain ⟨ticket, session, before⟩ := e
  cases steps with
  | finish | poll | formStart | leaves => cases h
  | arrive =>
    obtain ⟨a, may⟩ := h
    cases may
  | goes goes => exact goes.mayPush tripped h

theorem Evaluation.MayPush.of_others (h : e.MayPush d')
    (tripped : d.isTripped e.ticket = true → d'.isTripped e.ticket = true)
    (replies : ∀ key, e.stage.held? = some key →
      d'.reply? key = d.reply? key ∨ d.reply? key = none) :
    e.MayPush d := by
  obtain ⟨ticket, session, stage⟩ := e
  cases stage with
  | running | ended => exact h
  | paused site value next pause =>
    cases pause with
    | admitted | unskipped => exact trivial
    | arrived | unattached | asking | sending | refused | awaiting | answered =>
      obtain ⟨a, may⟩ := h
      have may' : Pause.MayAsk ⟨ticket, session, site, value⟩ d' a _ := may
      exact ⟨a, may'.of_others tripped replies⟩

theorem Evaluation.MayPush.fading : Service.Fading Evaluation.MayPush where
  running := id
  others := Evaluation.MayPush.of_others

namespace Service

variable {s : Service} {i : Nat} {next : Result → Run Result} {p : Pause}

/-! ## No prompt follows -/

/-- The `i`-th evaluation has been stopped and will not prompt any more. -/
def Quiet (s : Service) (i : Nat) : Prop :=
  s.Stopped i ∧ ∃ e, s.evaluations[i]? = some e ∧ ¬ e.MayPush s.debugger

theorem Quiet.pushed (h : s.Quiet i) (a : Action) : s.pushed i a = [] := by
  obtain ⟨-, e, here, calm⟩ := h
  rw [List.eq_nil_iff_forall_not_mem]
  intro x sent
  obtain ⟨-, hit, next, dialog, ask, key, there, -⟩ := exists_sending_of_pushed sent
  rw [At, here] at there
  cases there
  exact calm ⟨dialog.client, rfl⟩

theorem Quiet.act (h : s.Quiet i) (keyed : s.Keyed) (ticketed : s.Ticketed) (a : Action) :
    (s.act a).Quiet i := by
  obtain ⟨stopped, e, here, calm⟩ := h
  have own : s.session? i = some e.session := by rw [session?, here, Option.map_some]
  obtain ⟨f, there, -⟩ := Option.map_eq_some_iff.1 (session?_of_act own a)
  refine ⟨stopped.act here a, f, there, fun may => ?_⟩
  obtain ⟨e', here', -, may⟩ := Evaluation.MayPush.fading.of_act keyed
    (fun here steps => steps.mayPush (stopped.tripped ticketed here steps)) there may
  rw [here] at here'
  cases here'
  exact calm may

theorem Quiet.pushes (h : s.Quiet i) (keyed : s.Keyed) (ticketed : s.Ticketed)
    (later : List Action) : s.pushes i later = [] := by
  induction later generalizing s with
  | nil => rfl
  | cons a later ih =>
    rw [Service.pushes, h.pushed a, List.nil_append]
    exact ih (h.act keyed ticketed a) (keyed.act a) (ticketed.act a)

/-! ## A prompt follows -/

/-- The `i`-th evaluation sends a prompt in some continuation. -/
def Pushes (s : Service) (i : Nat) : Prop := ∃ later, s.pushes i later ≠ []

theorem Pushes.of_act {a : Action} (h : (s.act a).Pushes i) : s.Pushes i := by
  obtain ⟨later, sends⟩ := h
  refine ⟨a :: later, ?_⟩
  rw [Service.pushes]
  exact List.append_ne_nil_of_right_ne_nil _ sends

theorem Pushes.of_run {later : List Action} (h : (s.run later).Pushes i) : s.Pushes i := by
  obtain ⟨more, sends⟩ := h
  refine ⟨later ++ more, ?_⟩
  rw [pushes_append]
  exact List.append_ne_nil_of_right_ne_nil _ sends

theorem Leads.pushes {P : Service → Prop} (h : s.Leads i P) (sends : ∀ t, P t → t.Pushes i) :
    s.Pushes i := by
  obtain ⟨later, -, there⟩ := h
  exact Pushes.of_run (sends _ there)

theorem At.pushes_of_mayAsk {a : Attachment} (h : s.At i hit next p) (keyed : s.Keyed)
    (may : p.MayAsk hit s.debugger a) : s.Pushes i := by
  refine (h.prompting_of_mayAsk keyed may).pushes ?_
  rintro t ⟨dialog, ask, key, -, there⟩
  refine ⟨[.advance i], ?_⟩
  rw [Service.pushes, pushed_of_sending there]
  simp

theorem At.pushes_of_unskipped (h : s.At i hit next .unskipped) (keyed : s.Keyed) :
    s.Pushes i := by
  obtain ⟨later, client, -, keyed', there⟩ := h.exists_asking keyed
  exact Pushes.of_run (there.pushes_of_mayAsk keyed' (a := client) rfl)

theorem At.pushes_of_mayPush (h : s.At i hit next p) (keyed : s.Keyed)
    (prompts : s.debugger.sessions.skips hit.session hit.site.place = false)
    (may : p.MayPush hit s.debugger) : s.Pushes i := by
  cases p with
  | admitted =>
    obtain ⟨there, -⟩ := h.goes (.unskip prompts)
    exact Pushes.of_act (there.pushes_of_unskipped (keyed.act _))
  | unskipped => exact h.pushes_of_unskipped keyed
  | arrived | unattached | asking | sending | refused | awaiting | answered =>
    obtain ⟨a, may⟩ := may
    exact h.pushes_of_mayAsk keyed may

/-- After the closing of its session, an evaluation sends a prompt in some
    continuation exactly if it may do so from where it stands. -/
theorem pushes_after_close_iff (reachable : s.Reachable) {session : String}
    (own : s.session? i = some session) :
    (∃ later, (s.act (.close session)).pushes i later ≠ []) ↔
      ∃ e, s.evaluations[i]? = some e ∧ e.MayPush (s.act (.close session)).debugger := by
  have keyed := reachable.keyed.act (.close session)
  obtain ⟨e, here, rfl⟩ := Option.map_eq_some_iff.1 own
  constructor
  · rintro ⟨later, sends⟩
    refine ⟨e, here, Classical.byContradiction fun calm => sends ?_⟩
    have quiet : (s.act (.close e.session)).Quiet i :=
      ⟨stopped_of_close reachable own, e, here, calm⟩
    exact quiet.pushes keyed (reachable.ticketed.act _) later
  · rintro ⟨f, there, may⟩
    rw [here] at there
    cases there
    obtain ⟨ticket, session, stage⟩ := e
    cases stage with
    | running | ended => cases may
    | paused site value next pause =>
      have standing : (s.act (.close session)).At i ⟨ticket, session, site, value⟩ next pause :=
        here
      refine standing.pushes_of_mayPush keyed ?_ may
      -- a session that is not known passes no breakpoint
      simp only [SessionStore.skips, SessionStore.policy, find?_close]
      rfl

theorem pushes_after_close_at_prompt :
    ((new .default).run prompting).Reachable ∧
      ((new .default).run prompting).session? 0 = some "main" ∧
      ∃ later, (((new .default).run prompting).act (.close "main")).pushes 0 later ≠ [] := by
  have reachable : ((new .default).run prompting).Reachable := ⟨.default, prompting, rfl⟩
  have own : ((new .default).run prompting).session? 0 = some "main" := rfl
  refine ⟨reachable, own, (pushes_after_close_iff reachable own).2 ⟨_, rfl, ⟨1, 10⟩, rfl, ?_⟩⟩
  exact fun same => by cases same

theorem cancelled_evaluation_not_quiet :
    ¬ ∀ (s : Service) (i : Nat) (session : String) (later : List Action), s.Reachable →
      (s.debugger.close session).1 = true → i ∈ s.debugger.sessions.running session →
      (s.act (.close session)).pushes i later = [] := by
  intro quiet
  have none := quiet ((new .default).run prompting) 0 "main"
    (.submit (.nth 1) "eval" :: List.replicate 4 (.advance 0))
    ⟨.default, prompting, rfl⟩ rfl (by decide)
  have lengths : 1 = 0 := congrArg List.length none
  omega

end Service

end Stepper.Debug
