/-
  Evaluations that are about to end as aborted.

  Whatever error a breakpoint answers with is the result of the evaluation
  (`Reachable.final`).  So once the answer is bound to be `cancelled` there
  are only few steps to go (`Stage.Aborting`), and nobody keeps the evaluation
  from making them (`Aborting.run`) or hears of it meanwhile
  (`Aborting.pushes`).
-/
import Stepper.Proofs.Eval.Finality
import Stepper.Proofs.Service.Pushes

namespace Stepper.Eval.Run

variable {α : Type} {ends : Error → α → Prop}

theorem Final.follows {r r' : Run α} (h : r.Final ends) (follows : Follows r' r) :
    r'.Final ends := by
  cases follows with
  | poll tripped =>
    cases tripped with
    | false => exact h.2
    | true =>
      obtain ⟨a, ended, -⟩ := h.1
      rw [ended]
      exact trivial
  | formStart => exact h
  | hit answer =>
    cases answer with
    | ok value => exact h.2 value
    | error e =>
      obtain ⟨a, ended, -⟩ := h.1 e
      rw [ended]
      exact trivial

end Stepper.Eval.Run

namespace Stepper.Debug

open Stepper.Eval

/-- Errors that the program is told are its result. -/
abbrev Stage.Final (stage : Stage) : Prop := stage.rest.Final fun e result => result = .error e

theorem Debugger.final_runOf (code : String) :
    (runOf code).Final fun e result => result = .error e := by
  have source := final_evalSource [] code ⟨[], 0⟩
  refine source.bind ?_ fun _ => trivial
  rintro e ⟨result, context⟩ rfl
  exact ⟨_, rfl, rfl⟩

/-- The evaluation ends as aborted after so many steps, whatever others do. -/
inductive Stage.Aborting : Stage → Nat → Prop
  | quits {site value next dialog}
    (final : next (.error .cancelled) = .done (.error .cancelled)) :
    Aborting (.paused site value next (.answered dialog .command (.ok (.command .quit)))) 2
  | fails : Aborting (.running (.done (.error .cancelled))) 1
  | ended : Aborting (.ended (.error .cancelled)) 0

variable {e : Evaluation} {d d' : Debugger} {stage stage' : Stage} {n : Nat}

theorem Stage.Final.answer {site : Site} {value : Value} {next : Result → Run Result} {p : Pause}
    (h : (Stage.paused site value next p).Final) (error : Error) :
    next (.error error) = .done (.error error) := by
  obtain ⟨result, ended, rfl⟩ := h.1 error
  exact ended

theorem Stage.Aborting.silent (h : stage.Aborting n) : stage.sends = false := by
  cases h <;> rfl

theorem Stage.Aborting.step (h : stage.Aborting n) (steps : Steps e d stage stage' d') :
    ∃ m, n = m + 1 ∧ stage'.Aborting m := by
  cases h with
  | quits final =>
    cases steps with
    | goes goes => cases goes
    | leaves leaves =>
      cases leaves with
      | quit => exact ⟨1, rfl, final ▸ .fails⟩
      | noExpression kind => exact absurd rfl kind
  | fails =>
    cases steps with
    | finish => exact ⟨0, rfl, .ended⟩
  | ended => cases steps

theorem Stage.Aborting.exists_steps (h : e.stage.Aborting (n + 1)) :
    ∃ stage d', Steps e d e.stage stage d' := by
  obtain ⟨ticket, session, stage⟩ := e
  cases h with
  | quits => exact ⟨_, _, .leaves .quit⟩
  | fails => exact ⟨_, _, .finish⟩

theorem Stage.Aborting.not_expires (h : stage.Aborting n) : ¬ Expires d stage stage' d' := by
  intro expires
  cases h <;> cases expires

namespace Service

variable {s : Service} {i : Nat}

theorem Reachable.final (h : s.Reachable) {stage : Stage} (there : s.stage? i = some stage) :
    stage.Final := by
  refine h.induction (P := fun s => ∀ i stage, s.stage? i = some stage → stage.Final)
    ?_ ?_ i stage there
  · intro settings i stage there
    cases there
  · intro s a final i stage there
    cases reaches_of_act there with
    | stays there => exact final i stage there
    | start => exact Debugger.final_runOf _
    | @advance e _ here steps =>
      have before := final i e.stage (stage?_eq here)
      rcases steps.follows with same | follows
      · rw [Stage.Final, same]
        exact before
      · exact before.follows follows
    | expire here expires => exact (final i _ (stage?_eq here)).follows expires.follows

/-- The `i`-th evaluation ends as aborted after so many steps. -/
def Aborting (s : Service) (i n : Nat) : Prop := ∃ stage, s.stage? i = some stage ∧ stage.Aborting n

theorem Aborting.outcome? (h : s.Aborting i 0) : s.outcome? i = some .aborted := by
  obtain ⟨stage, there, aborting⟩ := h
  cases aborting
  obtain ⟨e, here, ended⟩ := Option.map_eq_some_iff.1 there
  rw [Service.outcome?, result?, here, Option.bind_some, Evaluation.result?, ended]
  rfl

/-- Nobody but itself makes the evaluation go on. -/
theorem Aborting.others (h : s.Aborting i n) {a : Action} (other : a ≠ .advance i) :
    (s.act a).Aborting i n := by
  obtain ⟨stage, there, aborting⟩ := h
  refine ⟨stage, ?_, aborting⟩
  obtain ⟨e, here, rfl⟩ := Option.map_eq_some_iff.1 there
  refine act_induction s a fun u change => ?_
  cases change with
  | idle | outside => exact there
  | start =>
    have old : i < s.evaluations.length := (List.getElem?_eq_some_iff.1 here).1
    rw [stage?, evaluation_append, if_neg (Nat.ne_of_lt old)]
    exact there
  | @advance j f stage d here' steps =>
    have different : i ≠ j := fun same => other (same ▸ rfl)
    rw [stage?_moved here', if_neg different, there]
  | @expire j f stage d here' expires =>
    have different : i ≠ j := by
      rintro rfl
      rw [here] at here'
      cases here'
      exact aborting.not_expires expires
    rw [stage?_moved here', if_neg different, there]

theorem Aborting.advance (h : s.Aborting i (n + 1)) : (s.act (.advance i)).Aborting i n := by
  obtain ⟨stage, there, aborting⟩ := h
  obtain ⟨e, here, rfl⟩ := Option.map_eq_some_iff.1 there
  obtain ⟨stage, d, steps⟩ := aborting.exists_steps
  obtain ⟨m, count, aborting⟩ := aborting.step steps
  cases count
  refine ⟨stage, ?_, aborting⟩
  rw [act_of_steps here steps, stage?_moved here, if_pos rfl]

theorem Aborting.ended (h : s.Aborting i 0) (a : Action) : (s.act a).Aborting i 0 := by
  obtain ⟨stage, there, aborting⟩ := h
  obtain ⟨e, here, rfl⟩ := Option.map_eq_some_iff.1 there
  have ended : e.stage = .ended (.error .cancelled) := by
    cases h : e.stage <;> rw [h] at aborting <;> cases aborting
    rfl
  exact ⟨e.stage, stage?_eq (ended_act here ended a), aborting⟩

theorem Aborting.act (h : s.Aborting i n) (a : Action) : ∃ m, (s.act a).Aborting i m := by
  by_cases own : a = .advance i
  · subst own
    cases n with
    | zero => exact ⟨0, h.ended _⟩
    | succ n => exact ⟨n, h.advance⟩
  · exact ⟨n, h.others own⟩

/-- Given its turns, the evaluation ends as aborted. -/
theorem Aborting.run {later : List Action} (h : s.Aborting i n)
    (turns : (List.replicate n (.advance i)).Sublist later) :
    (s.run later).outcome? i = some .aborted := by
  suffices (s.run later).Aborting i 0 from this.outcome?
  induction later generalizing s n with
  | nil =>
    cases n with
    | zero => exact h
    | succ n => cases turns
  | cons a later ih =>
    by_cases own : a = .advance i
    · subst own
      cases n with
      | zero => exact ih (h.ended _) (List.nil_sublist later)
      | succ n => exact ih h.advance (List.cons_sublist_cons.1 turns)
    · refine ih (h.others own) ?_
      rcases List.sublist_cons_iff.1 turns with rest | ⟨tail, same, -⟩
      · exact rest
      · have mem : a ∈ List.replicate n (Action.advance i) := same ▸ List.mem_cons_self
        exact absurd (List.eq_of_mem_replicate mem) own

/-- It does not prompt any more. -/
theorem Aborting.pushes (h : s.Aborting i n) (later : List Action) : s.pushes i later = [] := by
  induction later generalizing s n with
  | nil => rfl
  | cons a later ih =>
    obtain ⟨m, next⟩ := h.act a
    obtain ⟨stage, there, aborting⟩ := h
    rw [Service.pushes, pushed_eq_nil there aborting.silent, List.nil_append]
    exact ih next

end Service

end Stepper.Debug
