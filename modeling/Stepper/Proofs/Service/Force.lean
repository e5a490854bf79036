/-
  The force of stepping commands.

  `continue` and `out` set the policy of the session, which all its
  evaluations share.  What is left of the policy after some actions is said by
  `Service.policyThrough`: the start of an evaluation and the closing of the
  session undo it, a top-level form of any evaluation undoes what `out` has
  set, and any evaluation may give another command.  By what is left then, an
  evaluation passes its next breakpoint silently or prompts
  (`prompts_after_stepping`).
-/
import Stepper.Proofs.Service.Closing
import Stepper.Proofs.Service.Pushes
import Stepper.Proofs.Service.Selection

namespace Stepper.Debug

open Stepper.Eval

/-- The policy that a command given at a place puts into force. -/
def Command.force? (c : Command) (place : Coordinate) : Option SkipPolicy :=
  match c with
  | .proceed => some .everything
  | .out => some (.below place.parent)
  | .next | .inject | .eval | .quit => none

/-- What an evaluation makes of the policy of its session in its next step. -/
def Stage.policyAfter (policy : SkipPolicy) : Stage → SkipPolicy
  | .running (.formStart _) => policy.atTopLevel
  | .paused site _ _ (.answered _ .command (.ok (.command c))) =>
    (c.force? site.place).getD policy
  | _ => policy

variable {e : Evaluation} {d d' : Debugger} {hit : Hit} {session : String}

theorem Stage.policyAfter_of_ne_command {policy : SkipPolicy} {site : Site} {value : Value}
    {next : Result → Run Result} {dialog : Dialog} {ask : Ask} {reply : Except Error Reply}
    (h : ∀ c, ask = .command → reply ≠ .ok (.command c)) :
    Stage.policyAfter policy (.paused site value next (.answered dialog ask reply)) = policy := by
  rcases reply with e | c | form
  · cases ask <;> rfl
  · cases ask with
    | command => exact absurd rfl (h c rfl)
    | inject | eval => rfl
  · cases ask <;> rfl

theorem Steps.policy {stage : Stage} (steps : Steps e d e.stage stage d') :
    d'.sessions.policy e.session = e.stage.policyAfter (d.sessions.policy e.session) := by
  obtain ⟨ticket, session, before⟩ := e
  cases steps with
  | finish => exact SessionStore.policy_finish _
  | poll | arrive => rfl
  | formStart => exact SessionStore.policy_startForm_self
  | goes goes => cases goes <;> rfl
  | leaves leaves =>
    cases leaves with
    | proceed | out => exact SessionStore.policy_setPolicy_self _
    | stopped | skip | alone | unattached | refused | lost | awaiting | noCommand | next | quit
    | inject | eval => rfl
    | failed => exact (Stage.policyAfter_of_ne_command fun _ _ same => by cases same).symm
    | noExpression kind =>
      exact (Stage.policyAfter_of_ne_command fun _ same => absurd same kind).symm

theorem Evaluation.policyAfter_of_idle {policy : SkipPolicy} (idle : e.step? d = none) :
    e.stage.policyAfter policy = policy := by
  obtain ⟨ticket, session, stage⟩ := e
  cases stage with
  | ended => rfl
  | running rest => cases rest <;> cases idle
  | paused site value next p =>
    simp only [step?] at idle
    generalize moved : p.move ⟨ticket, session, site, value⟩ d = m at idle
    cases m with
    | goTo | resume => cases idle
    | blocked => cases stands_of_move moved <;> rfl

/-- At a breakpoint that is not passed silently. -/
def Pause.Decided : Pause → Prop
  | .arrived | .admitted => False
  | _ => True

/-- If it is at a breakpoint that it does not pass silently, the evaluation is
    at one of the given places. -/
def Stage.Within (P : Coordinate → Prop) : Stage → Prop
  | .paused site _ _ pause => pause.Decided → P site.place
  | _ => True

theorem Steps.within {P : Coordinate → Prop} {stage : Stage} (steps : Steps e d e.stage stage d')
    (within : e.stage.Within P)
    (prompts : ∀ place, d.sessions.skips e.session place = false → P place) : stage.Within P := by
  obtain ⟨ticket, session, before⟩ := e
  cases steps with
  | finish | poll | formStart | leaves => exact trivial
  | arrive => exact False.elim
  | goes goes =>
    cases goes with
    | pass => exact False.elim
    | unskip shown => exact fun _ => prompts _ shown
    | find | wait | found | ask | send | refuse | take | inject | eval | «show» =>
      exact fun _ => within trivial

theorem Command.leaves_of_force? {c : Command} {force : SkipPolicy} (dialog : Dialog)
    (h : c.force? hit.site.place = some force) :
    Leaves hit d (.answered dialog .command (.ok (.command c))) (.ok hit.value)
      (d.setPolicy hit.session force) := by
  cases c with
  | next | inject | eval | quit => cases h
  | proceed =>
    cases h
    exact .proceed
  | out =>
    cases h
    exact .out

namespace Service

variable {s t : Service} {i : Nat} {next : Result → Run Result}

/-- What an action makes of the policy of a session. -/
def policyAfter (s : Service) (session : String) (policy : SkipPolicy) : Action → SkipPolicy
  | .setPolicy other policy' => if other = session then policy' else policy
  | .close other | .start other _ => if other = session then .nothing else policy
  | .advance j =>
    match s.evaluations[j]? with
    | some e => if e.session = session then e.stage.policyAfter policy else policy
    | none => policy
  | .attach .. | .release _ | .setRefusing .. | .submit .. | .expire _ => policy

/-- What some actions leave of the policy of a session. -/
def policyThrough (s : Service) (session : String) (policy : SkipPolicy) :
    List Action → SkipPolicy
  | [] => policy
  | a :: later => (s.act a).policyThrough session (s.policyAfter session policy a) later

theorem policy_advance (s : Service) (session : String) (j : Nat) :
    (s.act (.advance j)).debugger.sessions.policy session =
      s.policyAfter session (s.debugger.sessions.policy session) (.advance j) := by
  rw [policyAfter]
  cases here : s.evaluations[j]? with
  | none => rw [act, move?, here, Option.bind_none, note]
  | some e =>
    cases stepped : e.step? s.debugger with
    | none =>
      have idle : s.act (.advance j) = s := by
        rw [act, move?, here, Option.bind_some, stepped, note]
      simp only [idle, Evaluation.policyAfter_of_idle stepped, ite_self]
    | some r =>
      obtain ⟨e', d⟩ := r
      obtain ⟨steps, -⟩ := steps_of_step? stepped
      rw [act_advance here stepped]
      by_cases own : e.session = session
      · subst own
        simp only [steps.policy, if_true]
      · simp only [if_neg own]
        exact steps.touches.policy own

/-- The policy of a session evolves as `policyAfter` says. -/
theorem policy_of_act (s : Service) (session : String) (a : Action) :
    (s.act a).debugger.sessions.policy session =
      s.policyAfter session (s.debugger.sessions.policy session) a := by
  cases a with
  | attach | release | setRefusing | submit => rfl
  | setPolicy other policy =>
    simp only [act, Debugger.setPolicy, policyAfter]
    split
    · rename_i own
      rw [own, SessionStore.policy_setPolicy_self]
    · rename_i different
      exact SessionStore.policy_setPolicy_of_ne _ (Ne.symm different)
  | close other =>
    rw [policyAfter]
    split
    · rename_i own
      rw [own, SessionStore.policy, find?_close]
      rfl
    · rename_i different
      simp only [act, Debugger.close]
      split
      · rfl
      · rename_i closed
        exact SessionStore.policy_of_close? closed (Ne.symm different)
  | start other code =>
    simp only [act, Debugger.start, Debugger.takeTicket, policyAfter]
    split
    · rename_i own
      rw [own, SessionStore.policy_begin_self]
    · rename_i different
      exact SessionStore.policy_begin_of_ne _ (Ne.symm different)
  | advance j => exact policy_advance s session j
  | expire j =>
    rw [policyAfter]
    refine act_induction s (.expire j) fun u change => ?_
    cases change with
    | idle => rfl
    | outside out => cases out
    | expire here expires => rw [moved, expires.sessions]

theorem policy_of_run (s : Service) (session : String) (later : List Action) :
    (s.run later).debugger.sessions.policy session =
      s.policyThrough session (s.debugger.sessions.policy session) later := by
  induction later generalizing s with
  | nil => rfl
  | cons a later ih =>
    rw [policyThrough, ← policy_of_act, ← ih]
    rfl

/-! ## What is left of a command -/

/-- An evaluation prompts only at places that the policy of its session did
    not pass meanwhile. -/
theorem within_of_pushes {P : Coordinate → Prop} (here : s.evaluations[i]? = some e)
    (within : e.stage.Within P) {later : List Action}
    (prompts : ∀ n, n ≤ later.length → ∀ place,
      (s.run (later.take n)).debugger.sessions.skips e.session place = false → P place)
    {x : Push} (h : x ∈ s.pushes i later) : P x.place := by
  induction later generalizing s e with
  | nil => cases h
  | cons a later ih =>
    rcases List.mem_append.1 h with now | afterwards
    · obtain ⟨-, hit, next, dialog, ask, key, there, place⟩ := exists_sending_of_pushed now
      rw [At, here] at there
      cases there
      rw [place]
      exact within trivial
    · have further : ∀ n, n ≤ later.length → ∀ place,
          ((s.act a).run (later.take n)).debugger.sessions.skips e.session place = false →
            P place := fun n le => prompts (n + 1) (Nat.succ_le_succ le)
      by_cases moves : Moves i a
      · rcases moved_of_act here moves with idle | ⟨stage, d, steps, moved⟩
        · rw [idle] at afterwards further
          exact ih here within further afterwards
        · have there : (s.act a).evaluations[i]? = some { e with stage } := by
            rw [moved, evaluation_moved here, if_pos rfl]
          refine ih there ?_ further afterwards
          rcases steps with steps | expires
          · exact steps.within within (prompts 0 (Nat.zero_le _))
          · generalize e.stage = before at expires
            cases expires
            exact trivial
      · exact ih (evaluation_act here moves) within further afterwards

section

variable {dialog : Dialog} {c : Command} {force : SkipPolicy}
  (h : s.At i hit next (.answered dialog .command (.ok (.command c))))
  (forces : c.force? hit.site.place = some force)
include h forces

theorem At.policy_of_obeyed (later : List Action) :
    ((s.act (.advance i)).run later).debugger.sessions.policy hit.session =
      (s.act (.advance i)).policyThrough hit.session force later := by
  rw [policy_of_run, (h.leaves (Command.leaves_of_force? dialog forces)).2, Debugger.setPolicy,
    SessionStore.policy_setPolicy_self]

theorem At.within_of_obeyed {P : Coordinate → Prop} {later : List Action}
    (prompts : ∀ n, n ≤ later.length → ∀ place,
      ((s.act (.advance i)).policyThrough hit.session force (later.take n)).skips place = false →
        P place)
    {x : Push} (sent : x ∈ (s.act (.advance i)).pushes i later) : P x.place := by
  obtain ⟨running, -⟩ := h.leaves (Command.leaves_of_force? dialog forces)
  refine within_of_pushes running trivial (fun n le place shown => prompts n le place ?_) sent
  rw [← h.policy_of_obeyed forces]
  exact shown

/-- While nobody changes what a command has put into force, the evaluation
    does not prompt where the command passes. -/
theorem At.silent_while_in_force {later : List Action}
    (kept : ∀ n, n ≤ later.length →
      (s.act (.advance i)).policyThrough hit.session force (later.take n) = force)
    {x : Push} (sent : x ∈ (s.act (.advance i)).pushes i later) :
    force.skips x.place = false :=
  h.within_of_obeyed forces (fun n le _ shown => kept n le ▸ shown) sent

/-- After a command that puts a policy into force, an evaluation prompts and
    passes breakpoints by what is left of that policy. -/
theorem prompts_after_stepping (later : List Action) :
    (∀ x ∈ (s.act (.advance i)).pushes i later, ∃ n, n ≤ later.length ∧
      ((s.act (.advance i)).policyThrough hit.session force (later.take n)).skips x.place = false) ∧
    ∀ hit' next', ((s.act (.advance i)).run later).At i hit' next' .admitted →
      if ((s.act (.advance i)).policyThrough hit.session force later).skips hit'.site.place then
        (((s.act (.advance i)).run later).act (.advance i)).stage? i =
          some (.running (next' (.ok hit'.value)))
      else (((s.act (.advance i)).run later).act (.advance i)).At i hit' next' .unskipped := by
  constructor
  · intro x sent
    refine h.within_of_obeyed (P := fun place => ∃ n, n ≤ later.length ∧
      ((s.act (.advance i)).policyThrough hit.session force (later.take n)).skips place = false)
      forces ?_ sent
    exact fun n le place shown => ⟨n, le, shown⟩
  · intro hit' next' there
    obtain ⟨running, -⟩ := h.leaves (Command.leaves_of_force? dialog forces)
    have session : hit'.session = hit.session := by
      have own : (s.act (.advance i)).session? i = some hit.session := by
        rw [session?, running, Option.map_some]
      have own' := session?_of_run own later
      rw [session?, there] at own'
      exact Option.some_inj.1 own'
    have skips : ((s.act (.advance i)).run later).debugger.sessions.skips hit'.session
        hit'.site.place =
          ((s.act (.advance i)).policyThrough hit.session force later).skips hit'.site.place := by
      rw [SessionStore.skips, session, h.policy_of_obeyed forces]
    split
    · rename_i passes
      rw [← skips] at passes
      exact stage?_eq (there.leaves (.skip passes)).1
    · rename_i shown
      rw [← skips, Bool.not_eq_true] at shown
      exact (there.goes (.unskip shown)).1

end

/-- A client answers `continue` at the first of two breakpoints, and the
    evaluation takes the answer. -/
def continued : List Action :=
  .attach ⟨1, 10⟩ false :: .start "main" "#break 1 #break 2" ::
    (List.replicate 7 (.advance 0) ++ [.submit (.nth 1) "continue", .advance 0])

/-- Another evaluation starts, and the first one goes on. -/
def overlapping : List Action := .start "main" "nil" :: List.replicate 7 (.advance 0)

theorem prompts_after_continue :
    ∃ hit next dialog, ((new .default).run continued).At 0 hit next
        (.answered dialog .command (.ok (.command .proceed))) ∧
      Command.force? .proceed hit.site.place = some .everything ∧
      ∀ x ∈ (((new .default).run continued).act (.advance 0)).pushes 0 overlapping,
        ∃ n, n ≤ overlapping.length ∧ ((((new .default).run continued).act
          (.advance 0)).policyThrough hit.session .everything (overlapping.take n)).skips x.place =
            false := by
  have here : ∃ site value next dialog, ((new .default).run continued).At 0
      ⟨0, "main", site, value⟩ next (.answered dialog .command (.ok (.command .proceed))) :=
    ⟨_, _, _, _, rfl⟩
  obtain ⟨site, value, next, dialog, here⟩ := here
  exact ⟨_, next, dialog, here, rfl, (prompts_after_stepping here rfl overlapping).1⟩

theorem continue_not_lasting :
    ¬ ∀ (s : Service) (i : Nat) (hit : Hit) (next : Result → Run Result) (dialog : Dialog)
      (later : List Action), s.Reachable →
      s.At i hit next (.answered dialog .command (.ok (.command .proceed))) →
      (∀ a ∈ later, (∃ j, a = .advance j) ∨ ∃ session code, a = .start session code) →
      (s.act (.advance i)).pushes i later = [] := by
  intro lasting
  have here : ∃ site value next dialog, ((new .default).run continued).At 0
      ⟨0, "main", site, value⟩ next (.answered dialog .command (.ok (.command .proceed))) :=
    ⟨_, _, _, _, rfl⟩
  obtain ⟨site, value, next, dialog, here⟩ := here
  have none := lasting _ 0 _ next dialog overlapping ⟨.default, continued, rfl⟩ here ?_
  · have lengths : 1 = 0 := congrArg List.length none
    omega
  · rintro a (_ | ⟨_, mem⟩)
    · exact .inr ⟨"main", "nil", rfl⟩
    · exact .inl ⟨0, List.eq_of_mem_replicate mem⟩

/-- One top-level form that calls a function twice; between the calls there is
    a breakpoint outside the function. -/
def callingTwice : String := "(let [f (fn [] #break 1)] (f) #break 2 (f))"

/-- A client answers `out` in the first call, and the evaluation takes the
    answer. -/
def leaving : List Action :=
  .attach ⟨1, 10⟩ false ::
    (List.replicate 10 (.advance 0) ++ [.submit (.nth 1) "out", .advance 0])

/-- At the breakpoint between the calls another evaluation starts and ends
    before the client answers `next`. -/
def calledAgain : List Action :=
  List.replicate 6 (.advance 0) ++ .start "main" "nil" :: .advance 1 :: .advance 1 ::
    .submit (.nth 2) "next" :: List.replicate 9 (.advance 0)

/-- The place where an evaluation has taken the command `out`. -/
def outPlace? (s : Service) (i : Nat) : Option Coordinate :=
  match s.stage? i with
  | some (.paused site _ _ (.answered _ .command (.ok (.command .out)))) => some site.place
  | _ => none

theorem at_of_outPlace? {place : Coordinate} (taken : s.outPlace? i = some place) :
    ∃ hit next dialog, s.At i hit next (.answered dialog .command (.ok (.command .out))) ∧
      hit.site.place = place := by
  unfold outPlace? at taken
  split at taken
  · rename_i site value next dialog stands
    obtain ⟨⟨ticket, session, stage⟩, here, same⟩ := Option.map_eq_some_iff.1 stands
    cases same
    exact ⟨⟨ticket, session, site, value⟩, next, dialog, here, Option.some_inj.1 taken⟩
  · cases taken

theorem out_not_lasting :
    ¬ ∀ (session code : String) (form : Syntax.Form) (before : List Action) (hit : Hit)
      (next : Result → Run Result) (dialog : Dialog) (later : List Action),
      Syntax.readForms code = .ok [form] →
      ((new .default).run (.start session code :: before)).At 0 hit next
        (.answered dialog .command (.ok (.command .out))) →
      (∀ a ∈ later, (∃ j, a = .advance j) ∨ (∃ session code, a = .start session code) ∨
        ∃ key, a = .submit key "next") →
      ∀ x ∈ (((new .default).run (.start session code :: before)).act (.advance 0)).pushes 0 later,
        (SkipPolicy.below hit.site.place.parent).skips x.place = false := by
  intro lasting
  have taken : ((new .default).run (.start "main" callingTwice :: leaving)).outPlace? 0 =
      some ⟨[1, 1, 2]⟩ := by decide +kernel
  obtain ⟨hit, next, dialog, here, place⟩ := at_of_outPlace? taken
  have silent := lasting _ _ _ leaving hit next dialog calledAgain rfl here ?_
  · have prompts : ((((new .default).run (.start "main" callingTwice :: leaving)).act (.advance 0)).pushes
        0 calledAgain).map (fun x => (SkipPolicy.below (Coordinate.parent ⟨[1, 1, 2]⟩)).skips x.place) =
          [false, true] := by decide +kernel
    have none : ∀ skipped ∈ [false, true], skipped = false := by
      rw [← prompts, ← place]
      exact List.forall_mem_map.2 silent
    exact absurd (none true (.tail _ (.head _))) (by decide)
  · intro a mem
    rcases List.mem_append.1 mem with mem | mem
    · exact .inl ⟨0, List.eq_of_mem_replicate mem⟩
    · rcases mem with _ | ⟨_, _ | ⟨_, _ | ⟨_, _ | ⟨_, mem⟩⟩⟩⟩
      · exact .inr (.inl ⟨"main", "nil", rfl⟩)
      · exact .inl ⟨1, rfl⟩
      · exact .inl ⟨1, rfl⟩
      · exact .inr (.inr ⟨.nth 2, rfl⟩)
      · exact .inl ⟨0, List.eq_of_mem_replicate mem⟩

end Service

end Stepper.Debug
