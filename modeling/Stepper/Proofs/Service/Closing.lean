/-
  What the closing of a session does to its evaluations.

  From its start to its end an evaluation is among the running ones of its
  session, unless it has been cancelled (`Reachable.enrolled`).  So closing a
  session cancels whatever has not ended there (`stopped_of_close`), and what
  has been stopped once remains so (`Stopped.act`).
-/
import Stepper.Proofs.Service.Keys
import Stepper.Proofs.Service.Tickets

namespace Stepper.Debug

open Stepper.Eval

variable {e : Evaluation} {d d' : Debugger}

/-! ## Running evaluations -/

theorem Touches.mem_running {held : Option Key} {session : String} {i : Ticket}
    (touch : Touches e held d d') (other : i ≠ e.ticket)
    (mem : i ∈ d.sessions.running session) : i ∈ d'.sessions.running session := by
  cases touch with
  | nothing | register | offer | forget | trip => exact mem
  | startForm => simpa only [SessionStore.running_startForm] using mem
  | setPolicy => simpa only [Debugger.setPolicy, SessionStore.running_setPolicy] using mem
  | finish =>
    simp only [SessionStore.running_finish]
    split
    · rename_i same
      subst same
      exact List.mem_filter.2 ⟨mem, by simpa using other⟩
    · exact mem

/-- A step that does not end the evaluation leaves it among the running ones. -/
theorem Steps.running {stage stage' : Stage} (steps : Steps e d stage stage' d')
    (runs : ∀ result, stage' ≠ .ended result) (session : String) :
    d'.sessions.running session = d.sessions.running session := by
  cases steps with
  | finish => exact absurd rfl (runs _)
  | poll | arrive => rfl
  | formStart => exact SessionStore.running_startForm
  | goes goes => cases goes <;> rfl
  | leaves leaves =>
    cases leaves with
    | proceed | out => exact SessionStore.running_setPolicy _
    | stopped | skip | alone | unattached | refused | lost | awaiting | failed | noCommand
    | noExpression | next | quit | inject | eval => rfl

theorem Evaluation.result?_eq_none_iff : e.result? = none ↔ ∀ result, e.stage ≠ .ended result := by
  obtain ⟨ticket, session, stage⟩ := e
  cases stage <;> simp [result?]

namespace Service

variable {s : Service} {i : Nat}

/-- An evaluation that has not ended runs in its session or has been
    cancelled. -/
def Enrolled (s : Service) : Prop :=
  ∀ (i : Nat) (e : Evaluation), s.evaluations[i]? = some e → e.result? = none →
    i ∈ s.debugger.sessions.running e.session ∨ s.debugger.isTripped i = true

theorem Enrolled.new (settings : Settings) : (new settings).Enrolled := by
  intro i e here
  cases here

theorem Enrolled.outside (h : s.Enrolled) {a : Action} (out : Outside s.debugger a d) :
    Enrolled { s with debugger := d } := by
  intro i e here runs
  rcases h i e here runs with mem | tripped
  · cases out with
    | attach | release | setRefusing | submit => exact .inl mem
    | setPolicy => exact .inl (by simpa only [Debugger.setPolicy, SessionStore.running_setPolicy])
    | @close session =>
      simp only [Debugger.close]
      split
      · exact .inl mem
      · rename_i running sessions closed
        by_cases same : e.session = session
        · subst same
          refine .inr ?_
          rw [SessionStore.eq_running_of_close? closed]
          simp [Debugger.isTripped, mem]
        · refine .inl ?_
          rw [SessionStore.running_of_close? closed, if_neg same]
          exact mem
  · exact .inr (out.isTripped tripped)

theorem Enrolled.start (h : s.Enrolled) (ticketed : s.Ticketed) (session code : String) :
    (s.act (.start session code)).Enrolled := by
  intro i e here runs
  rw [act, evaluation_append] at here
  split at here
  · rename_i last
    cases here
    refine .inl ?_
    simp only [act, Debugger.start, Debugger.takeTicket, SessionStore.running_begin, if_true,
      List.mem_append, List.mem_singleton]
    exact .inr (last.trans ticketed.count.symm)
  · rcases h i e here runs with mem | tripped
    · refine .inl ?_
      simp only [act, Debugger.start, Debugger.takeTicket, SessionStore.running_begin]
      split
      · rename_i same
        rw [← same]
        exact List.mem_append_left _ mem
      · exact mem
    · exact .inr tripped

theorem Enrolled.moved (h : s.Enrolled) (ticketed : s.Ticketed) {held : Option Key} {stage : Stage}
    (here : s.evaluations[i]? = some e) (before : e.result? = none)
    (touch : Touches e held s.debugger d)
    (own : (∀ result, stage ≠ .ended result) →
      d.sessions.running e.session = s.debugger.sessions.running e.session) :
    (s.moved i e stage d).Enrolled := by
  intro j f there runs
  rw [evaluation_moved here] at there
  split at there
  · rename_i same
    cases there
    subst same
    rcases h j e here before with mem | tripped
    · refine .inl ?_
      rw [Service.moved, own (Evaluation.result?_eq_none_iff.1 runs)]
      exact mem
    · exact .inr (touch.isTripped tripped)
  · rename_i different
    rcases h j f there runs with mem | tripped
    · refine .inl (touch.mem_running ?_ mem)
      rw [ticketed.ticket i e here]
      exact different
    · exact .inr (touch.isTripped tripped)

theorem Enrolled.act (h : s.Enrolled) (ticketed : s.Ticketed) (a : Action) :
    (s.act a).Enrolled := by
  refine act_induction s a fun u change => ?_
  cases change with
  | idle => exact h
  | outside out => exact h.outside out
  | start => exact h.start ticketed _ _
  | advance here steps =>
    exact h.moved ticketed here steps.result? steps.touches fun runs => steps.running runs _
  | @expire i e stage d here expires =>
    refine h.moved ticketed here expires.result? (expires.touches (e := e)) fun _ => ?_
    rw [expires.sessions]

theorem Reachable.enrolled (h : s.Reachable) : s.Enrolled :=
  h.invariant .new fun _ a reachable enrolled => enrolled.act reachable.ticketed a

/-! ## Stopped evaluations -/

/-- The `i`-th evaluation has ended or has been cancelled. -/
def Stopped (s : Service) (i : Nat) : Prop :=
  s.result? i = none → s.debugger.isTripped i = true

/-- Who makes a step though stopped has been cancelled. -/
theorem Stopped.tripped (h : s.Stopped i) (ticketed : s.Ticketed) {stage : Stage}
    (here : s.evaluations[i]? = some e) (steps : Steps e s.debugger e.stage stage d) :
    s.debugger.isTripped e.ticket = true := by
  rw [ticketed.ticket i e here]
  exact h (result?_of_steps here steps)

theorem Stopped.act (h : s.Stopped i) (here : s.evaluations[i]? = some e) (a : Action) :
    (s.act a).Stopped i := by
  intro runs
  refine isTripped_of_isTripped (h ?_)
  obtain ⟨ticket, session, stage⟩ := e
  cases stage with
  | running | paused =>
    rw [result?, here]
    rfl
  | ended result =>
    rw [result?, ended_act here rfl a] at runs
    cases runs

theorem running_close (session : String) :
    (s.act (.close session)).debugger.sessions.running session = [] := by
  simp only [act, Debugger.close]
  split
  · rename_i unknown
    rw [SessionStore.close?, Option.map_eq_none_iff] at unknown
    rw [SessionStore.running, unknown]
    rfl
  · rename_i closed
    rw [SessionStore.running_of_close? closed, if_pos rfl]

theorem find?_close (session : String) :
    (s.act (.close session)).debugger.sessions.find? session = none := by
  simp only [act, Debugger.close]
  split
  · rename_i unknown
    exact Option.map_eq_none_iff.1 unknown
  · rename_i closed
    rw [SessionStore.find?_of_close? closed, if_pos rfl]

/-- Whatever has not ended in a session is cancelled when it is closed. -/
theorem stopped_of_close (reachable : s.Reachable) {session : String}
    (own : s.session? i = some session) : (s.act (.close session)).Stopped i := by
  intro runs
  have enrolled : (s.act (.close session)).Enrolled :=
    reachable.enrolled.act reachable.ticketed (.close session)
  obtain ⟨e, here, rfl⟩ := Option.map_eq_some_iff.1 own
  have there : (s.act (.close e.session)).evaluations[i]? = some e := here
  rw [result?, there] at runs
  rcases enrolled i e there runs with mem | tripped
  · rw [running_close] at mem
    cases mem
  · exact tripped

end Service

end Stepper.Debug
