/-
  Who may be cancelled by what.

  The `i`-th evaluation bears the ticket `i`.  In every run only evaluations
  that were started are cancelled, and a session counts among its running
  evaluations only its own (`Reachable.ticketed`); so closing one session does not
  cancel the evaluations of another.
-/
import Stepper.Proofs.Service.Basic

namespace Stepper.Debug

open Stepper.Eval

variable {e : Evaluation} {d d' : Debugger}

theorem Touches.tickets {held : Option Key} (touch : Touches e held d d') :
    d'.tickets = d.tickets ∧ (∀ i ∈ d'.tripped, i ∈ d.tripped ∨ i = e.ticket) ∧
      ∀ session, ∀ i ∈ d'.sessions.running session, i ∈ d.sessions.running session := by
  cases touch with
  | nothing | register | offer | forget =>
    exact ⟨rfl, fun _ mem => .inl mem, fun _ _ mem => mem⟩
  | finish =>
    refine ⟨rfl, fun _ mem => .inl mem, fun session i mem => ?_⟩
    simp only [SessionStore.running_finish] at mem
    split at mem
    · rename_i same
      exact same ▸ (List.mem_filter.1 mem).1
    · exact mem
  | startForm =>
    refine ⟨rfl, fun _ mem => .inl mem, fun session i mem => ?_⟩
    simp only [SessionStore.running_startForm] at mem
    exact mem
  | setPolicy =>
    refine ⟨rfl, fun _ mem => .inl mem, fun session i mem => ?_⟩
    rw [Debugger.setPolicy, SessionStore.running_setPolicy] at mem
    exact mem
  | trip =>
    refine ⟨rfl, fun i mem => ?_, fun _ _ mem => mem⟩
    rcases List.mem_cons.1 mem with same | mem
    · exact .inr same
    · exact .inl mem

namespace Service

/-- Tickets tell evaluations apart. -/
structure Ticketed (s : Service) : Prop where
  count : s.debugger.tickets = s.evaluations.length
  ticket : ∀ i (e : Evaluation), s.evaluations[i]? = some e → e.ticket = i
  tripped : ∀ i ∈ s.debugger.tripped, i < s.evaluations.length
  running : ∀ session, ∀ i ∈ s.debugger.sessions.running session, s.session? i = some session

variable {s : Service} {i : Nat}

theorem Ticketed.new (settings : Settings) : (new settings).Ticketed where
  count := rfl
  ticket _ _ h := by cases h
  tripped _ h := by cases h
  running _ _ h := by cases h

/-- What is done from outside cancels running evaluations at most. -/
theorem Outside.tickets {a : Action} (out : Outside d a d') :
    d'.tickets = d.tickets ∧
      (∀ i ∈ d'.tripped, i ∈ d.tripped ∨
        ∃ session, a = .close session ∧ i ∈ d.sessions.running session) ∧
      ∀ session, ∀ i ∈ d'.sessions.running session, i ∈ d.sessions.running session := by
  cases out with
  | attach | release | setRefusing | submit =>
    exact ⟨rfl, fun _ mem => .inl mem, fun _ _ mem => mem⟩
  | setPolicy =>
    refine ⟨rfl, fun _ mem => .inl mem, fun other i mem => ?_⟩
    rw [Debugger.setPolicy, SessionStore.running_setPolicy] at mem
    exact mem
  | @close session =>
    unfold Debugger.close
    split
    · exact ⟨rfl, fun _ mem => .inl mem, fun _ _ mem => mem⟩
    · rename_i running sessions closed
      refine ⟨rfl, fun i mem => ?_, fun other i mem => ?_⟩
      · rcases List.mem_append.1 mem with mem | mem
        · rw [SessionStore.eq_running_of_close? closed] at mem
          exact .inr ⟨session, rfl, mem⟩
        · exact .inl mem
      · simp only [SessionStore.running_of_close? closed] at mem
        split at mem
        · cases mem
        · exact mem

theorem Ticketed.outside (h : s.Ticketed) {a : Action} (out : Outside s.debugger a d) :
    Ticketed { s with debugger := d } := by
  obtain ⟨count, tripped, running⟩ := out.tickets
  refine ⟨count.trans h.count, h.ticket, fun i mem => ?_, fun session i mem => ?_⟩
  · rcases tripped i mem with mem | ⟨session, -, mem⟩
    · exact h.tripped i mem
    · exact lt_of_session? (h.running session i mem)
  · exact h.running session i (running session i mem)

theorem Ticketed.start (h : s.Ticketed) (session code : String) :
    (s.act (.start session code)).Ticketed := by
  have old : ∀ {i : Nat} {other : String}, s.session? i = some other →
      (s.act (.start session code)).session? i = some other := by
    intro i other own
    rw [session?_start, if_neg (Nat.ne_of_lt (lt_of_session? own)), own]
  constructor
  case count =>
    simp only [act, Debugger.start, Debugger.takeTicket, List.length_append, List.length_singleton,
      h.count]
  case ticket =>
    intro i e here
    rw [act, evaluation_append] at here
    split at here
    · rename_i last
      cases here
      exact h.count.trans last.symm
    · exact h.ticket i e here
  case tripped =>
    intro i mem
    exact Nat.lt_of_lt_of_le (h.tripped i mem) (by simp [act])
  case running =>
    intro other i mem
    simp only [act, Debugger.start, Debugger.takeTicket, SessionStore.running_begin] at mem
    split at mem
    · rename_i same
      subst same
      rcases List.mem_append.1 mem with mem | mem
      · exact old (h.running other i mem)
      · rw [List.mem_singleton] at mem
        rw [session?_start, if_pos (mem.trans h.count)]
    · exact old (h.running other i mem)

theorem Ticketed.moved (h : s.Ticketed) {held : Option Key} {stage : Stage}
    (here : s.evaluations[i]? = some e) (touch : Touches e held s.debugger d) :
    (s.moved i e stage d).Ticketed := by
  obtain ⟨count, tripped, running⟩ := touch.tickets
  have length : (s.moved i e stage d).evaluations.length = s.evaluations.length :=
    List.length_set
  constructor
  case count => rw [length, ← h.count, ← count, Service.moved]
  case ticket =>
    intro j f there
    rw [evaluation_moved here] at there
    split at there
    · rename_i same
      cases there
      rw [same]
      exact h.ticket i e here
    · exact h.ticket j f there
  case tripped =>
    intro j mem
    rw [length]
    rcases tripped j mem with mem | rfl
    · exact h.tripped j mem
    · rw [h.ticket i e here]
      exact (List.getElem?_eq_some_iff.1 here).1
  case running =>
    intro session j mem
    rw [session?_moved here]
    exact h.running session j (running session j mem)

theorem Ticketed.act (h : s.Ticketed) (a : Action) : (s.act a).Ticketed := by
  refine act_induction s a fun u change => ?_
  cases change with
  | idle => exact h
  | outside out => exact h.outside out
  | start => exact h.start _ _
  | advance here steps => exact h.moved here steps.touches
  | expire here expires => exact h.moved here (expires.touches (e := _))

theorem Reachable.ticketed (h : s.Reachable) : s.Ticketed := h.induction .new fun _ a h => h.act a

theorem Ticketed.after (h : s.Ticketed) (schedule : Nat → Action) (n : Nat) :
    (s.after schedule n).Ticketed :=
  after_induction (fun _ a h => h.act a) h schedule n

/-- Only its own steps and the closing of its session cancel an evaluation. -/
theorem isTripped_act (h : s.Ticketed) {a : Action} {session : String}
    (own : s.session? i = some session) (others : ¬ Moves i a) (unclosed : a ≠ .close session)
    (free : s.debugger.isTripped i = false) : (s.act a).debugger.isTripped i = false := by
  simp only [Debugger.isTripped, List.contains_eq_mem, decide_eq_false_iff_not] at free ⊢
  refine act_induction s a fun u change mem => ?_
  cases change with
  | idle | start => exact free mem
  | outside out =>
    obtain ⟨-, tripped, -⟩ := out.tickets
    rcases tripped i mem with before | ⟨closed, rfl, running⟩
    · exact free before
    · have same := h.running closed i running
      rw [own] at same
      cases same
      exact unclosed rfl
  | @advance j f stage d there steps =>
    obtain ⟨-, tripped, -⟩ := steps.touches.tickets
    rcases tripped i mem with before | same
    · exact free before
    · rw [h.ticket j f there] at same
      exact others (.inl (same ▸ rfl))
  | @expire j f stage d there expires =>
    obtain ⟨-, tripped, -⟩ := (expires.touches (e := f)).tickets
    rcases tripped i mem with before | same
    · exact free before
    · rw [h.ticket j f there] at same
      exact others (.inr (same ▸ rfl))

end Service

end Stepper.Debug
