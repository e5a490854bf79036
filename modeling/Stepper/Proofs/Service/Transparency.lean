/-
  Stepping does not change the program.

  A client that attends to an evaluation and only gives commands with which it
  goes on, or has expressions shown, gets from it what it would have done
  without a debugger (`outcome_of_stepping`).
-/
import Stepper.Proofs.Eval.Trace
import Stepper.Proofs.Service.Progress

namespace Stepper.Debug

open Stepper.Eval Stepper.Syntax

/-- The result of a source text that is read and evaluated with nobody
    watching. -/
def plainResult (code : String) : Result :=
  match readForms code with
  | .error e => .error (.unreadable e)
  | .ok forms => ((evalForms [] forms).start [] |>.untouched false).1

theorem untouched_runOf (code : String) :
    (Debugger.runOf code).untouched false = plainResult code := by
  rw [Debugger.runOf, Run.untouched_bind, plainResult, evalSource]
  cases readForms code <;> rfl

namespace Service

variable {s : Service} {schedule : Nat → Action} {i n : Nat} {client : Attachment}

/-! ## Evaluations that have ended -/

theorem outcome?_of_ended {e : Evaluation} {result : Result} (here : s.evaluations[i]? = some e)
    (ended : e.stage = .ended result) : s.outcome? i = some (.ofResult result) := by
  obtain ⟨ticket, session, stage⟩ := e
  cases ended
  rw [outcome?, result?, here]
  rfl

theorem ended_of_outcome? {outcome : Outcome} (h : s.outcome? i = some outcome) :
    ∃ e result, s.evaluations[i]? = some e ∧ e.stage = .ended result := by
  obtain ⟨result, ended, -⟩ := Option.map_eq_some_iff.1 h
  obtain ⟨e, here, ended⟩ := Option.bind_eq_some_iff.1 ended
  obtain ⟨ticket, session, stage⟩ := e
  cases stage with
  | running | paused => cases ended
  | ended result' => exact ⟨_, result', here, rfl⟩

/-- An evaluation that has ended some time has ended from some time on and not
    before. -/
theorem exists_first_ended {e : Evaluation} {result : Result} (ended : e.stage = .ended result)
    (here : (s.after schedule n).evaluations[i]? = some e) :
    ∃ n, (∀ m, m < n → (s.after schedule m).outcome? i = none) ∧
      ∀ m, n ≤ m → (s.after schedule m).outcome? i = some (.ofResult result) := by
  induction n with
  | zero =>
    exact ⟨0, fun _ lt => absurd lt (Nat.not_lt_zero _), fun m le =>
      outcome?_of_ended (ended_after here ended le) ended⟩
  | succ n ih =>
    cases before : (s.after schedule n).outcome? i with
    | some outcome =>
      obtain ⟨f, result', there, ended'⟩ := ended_of_outcome? before
      have same := ended_act there ended' (schedule n)
      rw [after] at here
      rw [here] at same
      cases same
      exact ih there
    | none =>
      refine ⟨n + 1, fun m lt => ?_, fun m le =>
        outcome?_of_ended (ended_after here ended le) ended⟩
      cases early : (s.after schedule m).outcome? i with
      | none => rfl
      | some outcome =>
        obtain ⟨f, result', there, ended'⟩ := ended_of_outcome? early
        have later := ended_after there ended' (Nat.le_of_lt_succ lt)
        rw [outcome?_of_ended later ended'] at before
        cases before

/-! ## Stepping -/

/-- A client that attends to an evaluation steps through it: it lets the
    evaluation go on at every breakpoint, though it may look at expressions
    before, and nobody cancels the evaluation. -/
structure SteppedBy (s : Service) (schedule : Nat → Action) (i : Nat) (client : Attachment) : Prop
    extends Attended s schedule i client where
  untripped : ∀ n, (s.after schedule n).result? i = none →
    (s.after schedule n).debugger.isTripped i = false
  friendly : ∀ n ask reply, Replies s schedule i n ask reply → Friendly ask reply
  decided : Decided s schedule i

theorem start_evaluation (s : Service) (session code : String) :
    (s.act (.start session code)).evaluations[s.evaluations.length]? =
      some ⟨s.debugger.tickets, session, .running (Debugger.runOf code)⟩ := by
  rw [act, evaluation_append, if_pos rfl]
  rfl

/-- An evaluation that a client steps through ends, and its outcome is the one
    it has with nobody watching. -/
theorem outcome_of_stepping (reachable : s.Reachable) (session code : String)
    (stepped : SteppedBy (s.act (.start session code)) schedule s.evaluations.length client) :
    ∃ n,
      (∀ m, m < n → ((s.act (.start session code)).after schedule m).outcome?
        s.evaluations.length = none) ∧
      ∀ m, n ≤ m → ((s.act (.start session code)).after schedule m).outcome?
        s.evaluations.length = some (.ofResult (plainResult code)) := by
  have keyed := reachable.keyed.act (.start session code)
  have ticketed := reachable.ticketed.act (.start session code)
  obtain ⟨n, ended⟩ := exists_ended keyed ticketed stepped.toAttended stepped.untripped
    stepped.friendly (start_evaluation s session code) (untouched_runOf code) stepped.decided
  exact exists_first_ended rfl ended

/-! ### A breakpoint that is stepped over -/

/-- A client attaches, and an evaluation starts. -/
def started : Service :=
  ((new .default).run [.attach ⟨1, 10⟩ false]).act (.start "main" "#break 1")

/-- The evaluation goes to its breakpoint, the client replies, and the
    evaluation goes on. -/
def steppingOnce (n : Nat) : Action :=
  if n = 7 then .submit (.nth 1) "next" else .advance 0

theorem steppingOnce_ended {n : Nat} (late : 11 ≤ n) :
    (started.after steppingOnce n).result? 0 ≠ none := by
  have ended : ∃ e result, (started.after steppingOnce 11).evaluations[0]? = some e ∧
      e.stage = .ended result := ⟨_, _, rfl, rfl⟩
  obtain ⟨e, result, here, ended⟩ := ended
  intro runs
  have outcome := outcome?_of_ended (ended_after here ended late) ended
  rw [outcome?, runs] at outcome
  cases outcome

theorem steppingOnce_running : ∀ n, n < 11 →
    (started.after steppingOnce n).debugger.slot = some ⟨1, 10⟩ ∧
      (started.after steppingOnce n).debugger.net.accepts 1 = true ∧
      (started.after steppingOnce n).debugger.isTripped 0 = false := by
  decide

theorem steppingOnce_open : ∀ n, n < 11 →
    (started.after steppingOnce n).open? 0 = none ∨
      ((started.after steppingOnce n).open? 0 = some (.command, .nth 1) ∧ n ≤ 7) := by
  decide

theorem result?_of_open? {prompt : Ask × Key} (h : s.open? i = some prompt) : s.result? i = none := by
  obtain ⟨asked, -⟩ := Option.filter_eq_some_iff.1 h
  obtain ⟨stage, there, asks⟩ := Option.bind_eq_some_iff.1 asked
  obtain ⟨e, here, rfl⟩ := Option.map_eq_some_iff.1 there
  obtain ⟨ticket, session, stage⟩ := e
  rw [result?, here, Option.bind_some]
  cases stage with
  | running | ended => cases asks
  | paused => rfl

theorem steppingOnce_replies {n : Nat} {ask : Ask} {reply : Except Error Reply}
    (h : Replies started steppingOnce 0 n ask reply) :
    n = 7 ∧ ask = .command ∧ reply = .ok (.command .next) := by
  obtain ⟨key, text, isOpen, submits, rfl⟩ := h
  have early : n < 11 := Nat.lt_of_not_le fun late =>
    steppingOnce_ended late (result?_of_open? isOpen)
  have asks : (ask, key) = (.command, .nth 1) := by
    rcases steppingOnce_open n early with none | ⟨some, -⟩
    · rw [none] at isOpen
      cases isOpen
    · rw [some] at isOpen
      exact (Option.some_inj.1 isOpen).symm
  cases asks
  rw [steppingOnce] at submits
  split at submits
  · rename_i same
    cases submits
    exact ⟨same, rfl, rfl⟩
  · cases submits

theorem steppedBy_steppingOnce : SteppedBy started steppingOnce 0 ⟨1, 10⟩ := by
  have running : ∀ n, (started.after steppingOnce n).result? 0 = none → n < 11 := fun n runs =>
    Nat.lt_of_not_le fun late => steppingOnce_ended late runs
  constructor
  case untripped => exact fun n runs => (steppingOnce_running n (running n runs)).2.2
  case friendly =>
    intro n ask reply counts
    obtain ⟨-, rfl, rfl⟩ := steppingOnce_replies counts
    exact .inl rfl
  case decided =>
    refine fun n => .inr ⟨n, Nat.le_refl n, fun k _ again => ?_⟩
    obtain ⟨-, -, same⟩ := steppingOnce_replies again
    cases same
  constructor
  case attached => exact fun n runs => (steppingOnce_running n (running n runs)).1
  case accepts => exact fun n runs => (steppingOnce_running n (running n runs)).2.1
  case unhurried =>
    intro n
    rw [steppingOnce]
    split <;> exact fun same => by cases same
  case fair =>
    intro n _
    exact ⟨n + 8, Nat.le_add_right _ _, if_neg (by omega)⟩
  case answered =>
    intro n ask key isOpen
    rcases steppingOnce_open n (running n (result?_of_open? isOpen)) with none | ⟨some, early⟩
    · rw [none] at isOpen
      cases isOpen
    · rw [some] at isOpen
      cases isOpen
      exact ⟨7, early, "next", rfl⟩

theorem outcome_of_steppingOnce :
    ∃ n,
      (∀ m, m < n → (started.after steppingOnce m).outcome? 0 = none) ∧
      ∀ m, n ≤ m → (started.after steppingOnce m).outcome? 0 =
        some (.ofResult (plainResult "#break 1")) :=
  outcome_of_stepping ⟨.default, _, rfl⟩ "main" "#break 1" steppedBy_steppingOnce

end Service

end Stepper.Debug
