/-
  What the closing of a session ends.

  An evaluation that is `Suspended` stays so while the others make their steps
  (`Suspended.act`).  One that was so when its session was closed is `Halted`:
  with its next step it forgets its key, and then it ends as aborted
  (`Halted.run`).  Meanwhile nobody is told anything and all other sessions
  stay as they are (`Unwinding.act`).  So when all evaluations are suspended,
  closing a session ends those of the session and no others
  (`ends_own_of_close`).
-/
import Stepper.Proofs.Service.Aborting
import Stepper.Proofs.Service.Cleanup

namespace Stepper.Debug

open Stepper.Eval

/-- Where an evaluation waits that has been cancelled meanwhile. -/
inductive Halts (hit : Hit) (d : Debugger) : Pause → Prop
  | unattached (tripped : d.isTripped hit.ticket = true) : Halts hit d .unattached
  | awaiting {dialog ask key} (tripped : d.isTripped hit.ticket = true)
    (unanswered : d.accepts key = true) : Halts hit d (.awaiting dialog ask key)

variable {e : Evaluation} {d d' : Debugger} {hit : Hit} {p : Pause} {stage : Stage} {n : Nat}

/-- It forgets its key and fails. -/
theorem Halts.leaves (h : Halts hit d p) :
    Leaves hit d p (.error .cancelled) (p.held?.elim d d.forget) := by
  cases h with
  | unattached tripped => exact .unattached tripped
  | awaiting tripped unanswered => exact .awaiting unanswered tripped

theorem Stands.halts (h : Stands hit d p) (tripped : d'.isTripped hit.ticket = true)
    (accepts : ∀ key, p.held? = some key → d'.accepts key = d.accepts key) : Halts hit d' p := by
  cases h with
  | unattached => exact .unattached tripped
  | awaiting free unanswered => exact .awaiting tripped ((accepts _ rfl).trans unanswered)

theorem Stands.congr (h : Stands hit d p) (free : d'.isTripped hit.ticket = false)
    (slot : d'.slot = d.slot)
    (accepts : ∀ key, p.held? = some key → d'.accepts key = d.accepts key) :
    Stands hit d' p := by
  cases h with
  | unattached _ detached => exact .unattached free (slot.trans detached)
  | awaiting _ unanswered => exact .awaiting free ((accepts _ rfl).trans unanswered)

/-- Nobody but its session is concerned when an aborted evaluation ends. -/
theorem Stage.Aborting.sessions (h : stage.Aborting n) {stage' : Stage}
    (steps : Steps e d stage stage' d') :
    d'.net = d.net ∧
      (d'.sessions = d.sessions ∨ d'.sessions = d.sessions.finish e.session e.ticket) := by
  cases h with
  | quits =>
    cases steps with
    | goes goes => cases goes
    | leaves leaves => cases leaves <;> exact ⟨rfl, .inl rfl⟩
  | fails =>
    cases steps with
    | finish => exact ⟨rfl, .inr rfl⟩
  | ended => cases steps

namespace Service

variable {s t : Service} {i j : Nat} {session : String}

/-- The `i`-th evaluation waits for a client or for the reply to a prompt. -/
def Suspended (s : Service) (i : Nat) : Prop :=
  ∃ hit next p, s.At i hit next p ∧ Stands hit s.debugger p

/-- The `i`-th evaluation has been cancelled while it waited. -/
def Halted (s : Service) (i : Nat) : Prop :=
  ∃ hit next p, s.At i hit next p ∧ Halts hit s.debugger p

/-- Whose key is pending, and as what, is no matter of the steps of others. -/
theorem find?_advance (keyed : s.Keyed) {key : Key} (held : s.held? i = some key) (other : i ≠ j) :
    (s.act (.advance j)).debugger.channel.find? key = s.debugger.channel.find? key := by
  have others : ¬ Moves i (.advance j) := fun moves => other (moves.unique (.inl rfl))
  rcases find?_act keyed held others with same | ⟨text, submitted⟩
  · exact same
  · cases submitted

theorem accepts_advance (keyed : s.Keyed) {key : Key} (held : s.held? i = some key)
    (other : i ≠ j) : (s.act (.advance j)).debugger.accepts key = s.debugger.accepts key := by
  simp only [Debugger.accepts, Channel.accepts, find?_advance keyed held other]

theorem At.advance {next : Result → Run Result} (h : s.At i hit next p) (other : i ≠ j) :
    (s.act (.advance j)).At i hit next p :=
  evaluation_act h fun moves => other (moves.unique (.inl rfl))

theorem At.ticket {next : Result → Run Result} (h : s.At i hit next p) (ticketed : s.Ticketed) :
    hit.ticket = i :=
  ticketed.ticket i _ h

/-! ## Suspended evaluations -/

theorem Suspended.idle (h : s.Suspended i) : s.act (.advance i) = s := by
  obtain ⟨hit, next, p, here, stands⟩ := h
  have blocked : s.move? i Evaluation.step? = none := by
    rw [move?, here]
    simp only [Option.bind_some, Evaluation.step?, stands.move, Evaluation.afterMove]
  rw [act, blocked, note]

theorem Suspended.free (h : s.Suspended i) (ticketed : s.Ticketed) :
    s.debugger.isTripped i = false := by
  obtain ⟨hit, next, p, here, stands⟩ := h
  rw [← here.ticket ticketed]
  cases stands with
  | unattached free | awaiting free => exact free

theorem Suspended.advance (h : s.Suspended i) (keyed : s.Keyed) (ticketed : s.Ticketed) (j : Nat) :
    (s.act (.advance j)).Suspended i := by
  by_cases same : i = j
  · subst same
    rw [h.idle]
    exact h
  · have free := h.free ticketed
    obtain ⟨hit, next, p, here, stands⟩ := h
    have own : s.session? i = some hit.session := by rw [session?, here, Option.map_some]
    refine ⟨hit, next, p, here.advance same, stands.congr ?_ (slot_act rfl) fun key held => ?_⟩
    · rw [here.ticket ticketed]
      have others : ¬ Moves i (.advance j) := fun moves => same (moves.unique (.inl rfl))
      exact isTripped_act ticketed own others (fun closes => by cases closes) free
    · exact accepts_advance keyed ((held?_eq here.stage?).trans held) same

/-- While evaluations make their steps, a suspended one stays as it is. -/
theorem Suspended.run (h : s.Suspended i) (reachable : s.Reachable) {later : List Action}
    (steps : ∀ a ∈ later, ∃ j, a = .advance j) :
    (s.run later).Suspended i ∧ (s.run later).evaluations[i]? = s.evaluations[i]? ∧
      ∀ key, s.held? i = some key →
        (s.run later).debugger.channel.find? key = s.debugger.channel.find? key := by
  induction later generalizing s with
  | nil => exact ⟨h, rfl, fun _ _ => rfl⟩
  | cons a later ih =>
    obtain ⟨j, rfl⟩ := steps a List.mem_cons_self
    have stays : (s.act (.advance j)).evaluations[i]? = s.evaluations[i]? ∧
        ∀ key, s.held? i = some key →
          (s.act (.advance j)).debugger.channel.find? key = s.debugger.channel.find? key := by
      by_cases same : i = j
      · subst same
        rw [h.idle]
        exact ⟨rfl, fun _ _ => rfl⟩
      · obtain ⟨hit, next, p, here, -⟩ := h
        refine ⟨(here.advance same).trans here.symm, fun key held => ?_⟩
        exact find?_advance reachable.keyed held same
    obtain ⟨still, evaluation, found⟩ := ih (h.advance reachable.keyed reachable.ticketed j)
      (reachable.act _) fun a mem => steps a (List.mem_cons_of_mem _ mem)
    refine ⟨still, evaluation.trans stays.1, fun key held => ?_⟩
    refine (found key ?_).trans (stays.2 key held)
    simpa only [held?, stage?, stays.1] using held

/-! ## Halted evaluations -/

theorem Halted.others (h : s.Halted i) (keyed : s.Keyed) (other : i ≠ j) :
    (s.act (.advance j)).Halted i := by
  obtain ⟨hit, next, p, here, halts⟩ := h
  have accepts : ∀ key, p.held? = some key →
      (s.act (.advance j)).debugger.accepts key = s.debugger.accepts key := fun key held =>
    accepts_advance keyed ((held?_eq here.stage?).trans held) other
  refine ⟨hit, next, p, here.advance other, ?_⟩
  cases halts with
  | unattached tripped => exact .unattached (isTripped_of_isTripped tripped)
  | awaiting tripped unanswered =>
    exact .awaiting (isTripped_of_isTripped tripped) ((accepts _ rfl).trans unanswered)

/-- With its next step it forgets its key, and it is bound to end as aborted. -/
theorem Halted.advance (h : s.Halted i) (final : ∀ stage, s.stage? i = some stage → stage.Final) :
    (s.act (.advance i)).Aborting i 1 ∧
      (s.act (.advance i)).debugger =
        (s.held? i).elim s.debugger s.debugger.forget := by
  obtain ⟨hit, next, p, here, halts⟩ := h
  obtain ⟨there, after⟩ := here.leaves halts.leaves
  have fails := (final _ here.stage?).answer .cancelled
  rw [fails] at there
  rw [after, held?_eq here.stage?]
  exact ⟨⟨_, stage?_eq there, .fails⟩, rfl⟩

/-- Given its turns, it ends as aborted, and its key is gone. -/
theorem Halted.run (h : s.Halted i) (reachable : s.Reachable) {later : List Action}
    (steps : ∀ a ∈ later, ∃ j, a = .advance j)
    (turns : (List.replicate 2 (.advance i)).Sublist later) :
    (s.run later).outcome? i = some .aborted ∧
      ∀ key, s.held? i = some key → key ∉ (s.run later).debugger.channel.keys := by
  induction later generalizing s with
  | nil => cases turns
  | cons a later ih =>
    obtain ⟨j, rfl⟩ := steps a List.mem_cons_self
    by_cases same : i = j
    · subst same
      obtain ⟨aborting, after⟩ := h.advance fun _ there => reachable.final there
      refine ⟨aborting.run (List.cons_sublist_cons.1 turns), fun key held => ?_⟩
      have issued := reachable.keyed.sound.issued key (reachable.keyed.pending i key held)
      refine notMem_keys_run ((becomes_act s _).hasIssued issued) ?_ later
      rw [after, held, Option.elim_some, Debugger.forget, Channel.keys_forget]
      simp
    · have held : (s.act (.advance j)).held? i = s.held? i := by
        obtain ⟨hit, next, p, here, -⟩ := h
        rw [held?_eq here.stage?, held?_eq (here.advance same).stage?]
      rw [← held]
      refine ih (h.others reachable.keyed same) (reachable.act _)
        (fun a mem => steps a (List.mem_cons_of_mem _ mem)) ?_
      rcases List.sublist_cons_iff.1 turns with rest | ⟨tail, own, -⟩
      · exact rest
      · cases own
        exact absurd rfl same

/-! ## Closing -/

theorem close_others (s : Service) (session : String) :
    (s.act (.close session)).debugger.channel = s.debugger.channel ∧
      (s.act (.close session)).debugger.net = s.debugger.net ∧
      ∀ name, name ≠ session → (s.act (.close session)).debugger.sessions.find? name =
        s.debugger.sessions.find? name := by
  simp only [act, Debugger.close]
  split
  · exact ⟨rfl, rfl, fun _ _ => rfl⟩
  · rename_i closed
    refine ⟨rfl, rfl, fun name other => ?_⟩
    rw [SessionStore.find?_of_close? closed, if_neg other]

/-- An evaluation that waits is halted when its session is closed. -/
theorem Suspended.close (h : s.Suspended i) (reachable : s.Reachable)
    (own : s.session? i = some session) : (s.act (.close session)).Halted i := by
  have stopped := stopped_of_close reachable own
  obtain ⟨hit, next, p, here, stands⟩ := h
  have there : (s.act (.close session)).At i hit next p := here
  refine ⟨hit, next, p, there, stands.halts ?_ fun key _ => ?_⟩
  · rw [here.ticket reachable.ticketed]
    refine stopped ?_
    rw [result?, there]
    rfl
  · rw [Debugger.accepts, (close_others s session).1, Debugger.accepts]

/-- It goes on waiting when another session is closed. -/
theorem Suspended.close_other (h : s.Suspended i) (reachable : s.Reachable) {name : String}
    (own : s.session? i = some name) (other : name ≠ session) :
    (s.act (.close session)).Suspended i := by
  have free := h.free reachable.ticketed
  obtain ⟨hit, next, p, here, stands⟩ := h
  refine ⟨hit, next, p, here, stands.congr ?_ (slot_act rfl) fun key _ => ?_⟩
  · rw [here.ticket reachable.ticketed]
    refine isTripped_act reachable.ticketed own ?_ ?_ free
    · rintro (same | same) <;> cases same
    · intro closes
      cases closes
      exact other rfl
  · rw [Debugger.accepts, (close_others s session).1, Debugger.accepts]

/-- Who waits runs in its session. -/
theorem Suspended.mem_running (h : s.Suspended i) (reachable : s.Reachable)
    (own : s.session? i = some session) : i ∈ s.debugger.sessions.running session := by
  have free := h.free reachable.ticketed
  obtain ⟨hit, next, p, here, -⟩ := h
  rw [session?, here] at own
  cases own
  rcases reachable.enrolled i _ here rfl with running | tripped
  · exact running
  · rw [free] at tripped
    cases tripped

/-! ## After the closing -/

/-- The `i`-th evaluation is bound to end as aborted. -/
def Ending (s : Service) (i : Nat) : Prop := s.Halted i ∨ ∃ n, s.Aborting i n

theorem Ending.advance (h : s.Ending i) (reachable : s.Reachable) (j : Nat) :
    (s.act (.advance j)).Ending i := by
  rcases h with halted | ⟨n, aborting⟩
  · by_cases same : i = j
    · subst same
      exact .inr ⟨1, (halted.advance fun _ there => reachable.final there).1⟩
    · exact .inl (halted.others reachable.keyed same)
  · exact .inr (aborting.act _)

/-- Its steps concern at most its own session. -/
theorem Ending.sessions (h : s.Ending i) (reachable : s.Reachable)
    (own : s.session? i = some session) :
    (s.act (.advance i)).debugger.net = s.debugger.net ∧
      ((s.act (.advance i)).debugger.sessions = s.debugger.sessions ∨ ∃ ticket,
        (s.act (.advance i)).debugger.sessions = s.debugger.sessions.finish session ticket) := by
  rcases h with halted | ⟨n, stage, there, aborting⟩
  · rw [(halted.advance fun _ there => reachable.final there).2]
    cases s.held? i <;> exact ⟨rfl, .inl rfl⟩
  · obtain ⟨e, here, rfl⟩ := Option.map_eq_some_iff.1 own
    rw [stage?_eq here] at there
    cases there
    rcases advance_of_act here rfl with idle | ⟨stage, d, steps, moved⟩
    · rw [idle]
      exact ⟨rfl, .inl rfl⟩
    · obtain ⟨net, sessions⟩ := aborting.sessions steps
      rw [moved]
      exact ⟨net, sessions.imp_right fun finished => ⟨_, finished⟩⟩

/-- A session has been closed in `s`, and nothing else has happened than that
    its evaluations came to their ends. -/
structure Unwinding (session : String) (s t : Service) : Prop where
  reachable : t.Reachable
  forgotten : t.debugger.sessions.find? session = none
  others : ∀ name, name ≠ session →
    t.debugger.sessions.find? name = s.debugger.sessions.find? name
  net : t.debugger.net = s.debugger.net
  each : ∀ i name, t.session? i = some name →
    t.result? i ≠ none ∨ t.Suspended i ∨ name = session ∧ t.Ending i

theorem Unwinding.quiet (h : Unwinding session s t) (j : Nat) :
    (t.act (.advance j)).debugger.net = t.debugger.net ∧ ∀ name,
      (t.act (.advance j)).debugger.sessions.find? name = t.debugger.sessions.find? name := by
  have idle : t.act (.advance j) = t → (t.act (.advance j)).debugger.net = t.debugger.net ∧
      ∀ name, (t.act (.advance j)).debugger.sessions.find? name =
        t.debugger.sessions.find? name := by
    intro same
    rw [same]
    exact ⟨rfl, fun _ => rfl⟩
  cases here : t.evaluations[j]? with
  | none =>
    refine idle ?_
    rw [act, move?, here]
    rfl
  | some e =>
    have own : t.session? j = some e.session := by rw [session?, here, Option.map_some]
    rcases h.each j e.session own with ended | suspended | ⟨same, ending⟩
    · rcases advance_of_act here rfl with same | ⟨stage, d, steps, -⟩
      · exact idle same
      · exact absurd (result?_of_steps here steps) ended
    · exact idle suspended.idle
    · obtain ⟨net, sessions | ⟨ticket, sessions⟩⟩ := ending.sessions h.reachable (same ▸ own)
      · exact ⟨net, fun name => by rw [sessions]⟩
      · refine ⟨net, fun name => ?_⟩
        rw [sessions, SessionStore.find?_finish]
        split
        · rename_i own
          rw [own, h.forgotten, Option.map_none]
        · rfl

theorem Unwinding.advance (h : Unwinding session s t) (j : Nat) :
    Unwinding session s (t.act (.advance j)) where
  reachable := h.reachable.act _
  forgotten := ((h.quiet j).2 session).trans h.forgotten
  others name other := ((h.quiet j).2 name).trans (h.others name other)
  net := (h.quiet j).1.trans h.net
  each := by
    intro i name own
    rcases session?_act own with before | ⟨code, starts⟩
    · rcases h.each i name before with ended | suspended | ⟨same, ending⟩
      · refine .inl ?_
        obtain ⟨e, here, -⟩ := Option.map_eq_some_iff.1 before
        obtain ⟨ticket, session, stage⟩ := e
        rw [result?, here] at ended
        cases stage with
        | running | paused => exact absurd rfl ended
        | ended result =>
          rw [result?, ended_act here rfl]
          exact ended
      · exact .inr (.inl (suspended.advance h.reachable.keyed h.reachable.ticketed j))
      · exact .inr (.inr ⟨same, ending.advance h.reachable j⟩)
    · cases starts

theorem Unwinding.run (h : Unwinding session s t) {later : List Action}
    (steps : ∀ a ∈ later, ∃ j, a = .advance j) : Unwinding session s (t.run later) := by
  induction later generalizing t with
  | nil => exact h
  | cons a later ih =>
    obtain ⟨j, rfl⟩ := steps a List.mem_cons_self
    exact ih (h.advance j) fun a mem => steps a (List.mem_cons_of_mem _ mem)

theorem unwinding_close (reachable : s.Reachable)
    (waiting : ∀ i < s.evaluations.length, s.result? i = none → s.Suspended i) (session : String) :
    Unwinding session s (s.act (.close session)) where
  reachable := reachable.act _
  forgotten := find?_close session
  others := (close_others s session).2.2
  net := (close_others s session).2.1
  each := by
    intro i name own
    have own' : s.session? i = some name := own
    by_cases ended : s.result? i = none
    · have suspended := waiting i (lt_of_session? own') ended
      by_cases same : name = session
      · subst same
        exact .inr (.inr ⟨rfl, .inl (suspended.close reachable own')⟩)
      · exact .inr (.inl (suspended.close_other reachable own' same))
    · exact .inl ended

/-- When all evaluations that have not ended wait for a client or for a reply,
    the closing of a session ends those that run in it, as aborted and with
    their keys gone, and no others, and nobody is told anything. -/
theorem ends_own_of_close (reachable : s.Reachable)
    (waiting : ∀ i < s.evaluations.length, s.result? i = none → s.Suspended i)
    (session : String) {later : List Action} (steps : ∀ a ∈ later, ∃ j, a = .advance j) :
    session ∉ ((s.act (.close session)).run later).debugger.sessions.names ∧
    ((s.act (.close session)).run later).debugger.slot = s.debugger.slot ∧
    ((s.act (.close session)).run later).debugger.net = s.debugger.net ∧
    (∀ i ∈ s.debugger.sessions.running session,
      (List.replicate 2 (.advance i)).Sublist later →
      ((s.act (.close session)).run later).outcome? i = some .aborted ∧
      ∀ key, s.held? i = some key →
        key ∉ ((s.act (.close session)).run later).debugger.channel.keys) ∧
    ∀ i name, s.session? i = some name → s.result? i = none →
      i ∉ s.debugger.sessions.running session →
      ((s.act (.close session)).run later).Suspended i ∧
      ((s.act (.close session)).run later).evaluations[i]? = s.evaluations[i]? ∧
      (∀ key, s.held? i = some key →
        key ∈ ((s.act (.close session)).run later).debugger.channel.keys ∧
        ((s.act (.close session)).run later).debugger.channel.find? key =
          s.debugger.channel.find? key) ∧
      ((s.act (.close session)).run later).debugger.sessions.find? name =
        s.debugger.sessions.find? name := by
  have closed := unwinding_close reachable waiting session
  have unwound := closed.run steps
  have slot : ((s.act (.close session)).run later).debugger.slot = s.debugger.slot := by
    refine (slot_run fun a mem => ?_).trans (slot_act rfl)
    obtain ⟨j, rfl⟩ := steps a mem
    rfl
  refine ⟨?_, slot, unwound.net, fun i running turns => ?_, fun i name own runs free => ?_⟩
  · rw [SessionStore.mem_names_iff]
    rintro ⟨known, found⟩
    rw [unwound.forgotten] at found
    cases found
  · have own := reachable.ticketed.running session i running
    have runs := reachable.retired session i running
    have halted := (waiting i (lt_of_session? own) runs).close reachable own
    exact halted.run closed.reachable steps turns
  · have suspended := waiting i (lt_of_session? own) runs
    have other : name ≠ session := by
      rintro rfl
      exact free (suspended.mem_running reachable own)
    obtain ⟨still, same, found⟩ :=
      (suspended.close_other reachable own other).run closed.reachable steps
    refine ⟨still, same, fun key held => ?_, unwound.others name other⟩
    have held' : ((s.act (.close session)).run later).held? i = some key := by
      rw [← held, held?, stage?, same]
      rfl
    refine ⟨unwound.reachable.keyed.pending i key held', (found key held).trans ?_⟩
    rw [(close_others s session).1]

/-- One evaluation waits for a reply, another one for a client. -/
def standing : List Action :=
  [.attach ⟨1, 10⟩ false, .start "main" "#break 1"] ++ List.replicate 7 (.advance 0) ++
    [.release 1, .start "other" "#break 2"] ++ List.replicate 5 (.advance 1)

theorem ends_own_of_close_while_standing :
    let s := (new ⟨.block, none⟩).run standing
    let t := (s.act (.close "main")).run [.advance 0, .advance 1, .advance 0]
    s.Reachable ∧ (∀ i < 2, s.result? i = none → s.Suspended i) ∧
      0 ∈ s.debugger.sessions.running "main" ∧ 1 ∉ s.debugger.sessions.running "main" ∧
      s.held? 0 = some (.nth 1) ∧ t.outcome? 0 = some .aborted ∧
      Key.nth 1 ∉ t.debugger.channel.keys ∧ t.Suspended 1 := by
  intro s t
  have reachable : s.Reachable := ⟨_, standing, rfl⟩
  have waiting : ∀ i < 2, s.result? i = none → s.Suspended i := by
    intro i lt _
    match i, lt with
    | 0, _ => exact ⟨⟨0, "main", _, _⟩, _, _, rfl, .awaiting rfl rfl⟩
    | 1, _ => exact ⟨⟨1, "other", _, _⟩, _, _, rfl, .unattached rfl rfl⟩
  have steps : ∀ a ∈ [Action.advance 0, .advance 1, .advance 0], ∃ j, a = .advance j := by simp
  have own : 0 ∈ s.debugger.sessions.running "main" := by decide
  have foreign : 1 ∉ s.debugger.sessions.running "main" := by decide
  obtain ⟨-, -, -, ends, stays⟩ := ends_own_of_close reachable waiting "main" steps
  have turns : (List.replicate 2 (Action.advance 0)).Sublist
      [.advance 0, .advance 1, .advance 0] := by simp [List.replicate]
  obtain ⟨aborted, gone⟩ := ends 0 own turns
  exact ⟨reachable, waiting, own, foreign, rfl, aborted, gone (.nth 1) rfl,
    (stays 1 "other" rfl rfl foreign).1⟩

end Service

end Stepper.Debug
