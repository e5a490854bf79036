/-
  Evaluations under the debugger.

  An evaluation runs, stands at a breakpoint, or has ended.  `step?` makes its
  next step, which touches the shared state at most once; it is `none` when
  the evaluation has ended or has to wait for somebody else.

  An evaluation left to itself halts: `settle` steps until it has ended, has
  to wait, or has a prompt with a client.  This is well-founded because every
  step but the one that takes a reply brings the evaluation nearer to its end
  (`position_of_step?`).
-/
import Stepper.Debug.Breakpoint

namespace Stepper.Eval.Run

variable {α : Type}

/-- `r` is what some answer to the next question of a run leads to. -/
inductive Follows : Run α → Run α → Prop
  | poll {next} (tripped : Bool) : Follows (next tripped) (.poll next)
  | formStart {next} : Follows next (.formStart next)
  | hit {site value next} (answer : Result) : Follows (next answer) (.hit site value next)

theorem follows_wf : WellFounded (Follows (α := α)) := by
  refine ⟨fun r => ?_⟩
  induction r with
  | done a => exact ⟨_, fun _ h => by cases h⟩
  | poll next ih =>
    refine ⟨_, fun _ h => ?_⟩
    cases h with
    | poll tripped => exact ih tripped
  | formStart next ih =>
    refine ⟨_, fun _ h => ?_⟩
    cases h
    exact ih
  | hit site value next ih =>
    refine ⟨_, fun _ h => ?_⟩
    cases h with
    | hit answer => exact ih answer

instance : WellFoundedRelation (Run α) := ⟨Follows, follows_wf⟩

end Stepper.Eval.Run

namespace Stepper.Debug

open Stepper.Eval

/-- How an evaluation ends. -/
inductive Outcome where
  | value (value : Value)
  | error (error : Error)
  /-- Cancelled by a client. -/
  | aborted

/-- The outcome of a result. -/
def Outcome.ofResult : Result → Outcome
  | .ok v => value v
  | .error .cancelled => aborted
  | .error e => error e

/-- What an evaluation is at. -/
inductive Stage where
  | running (rest : Run Result)
  | paused (site : Site) (value : Value) (next : Result → Run Result) (pause : Pause)
  | ended (result : Result)

/-- An evaluation and the session it belongs to. -/
structure Evaluation where
  ticket : Ticket
  session : String
  stage : Stage

namespace Evaluation

/-- What the program still has to do, and how far the next halt is. -/
def position (e : Evaluation) : Run Result × Nat :=
  match e.stage with
  | .running rest => (rest, 10)
  | .paused site value next pause => (.hit site value next, pause.rank)
  | .ended result => (.done result, 0)

/-- The key of the prompt that is with a client. -/
def prompt? (e : Evaluation) : Option Key :=
  match e.stage with
  | .paused _ _ _ pause => pause.prompt?
  | _ => none

/-- The result of an evaluation that has ended. -/
def result? (e : Evaluation) : Option Result :=
  match e.stage with
  | .ended result => some result
  | _ => none

/-- The evaluation after a move at a breakpoint. -/
def afterMove (e : Evaluation) (site : Site) (value : Value) (next : Result → Run Result) :
    Move → Option (Evaluation × Debugger)
  | .blocked => none
  | .goTo pause d => some ({ e with stage := .paused site value next pause }, d)
  | .resume answer d => some ({ e with stage := .running (next answer) }, d)

/-- The next step. -/
def step? (e : Evaluation) (d : Debugger) : Option (Evaluation × Debugger) :=
  match e.stage with
  | .running (.done result) =>
    some ({ e with stage := .ended result },
      { d with sessions := d.sessions.finish e.session e.ticket })
  | .running (.poll next) => some ({ e with stage := .running (next (d.isTripped e.ticket)) }, d)
  | .running (.formStart next) =>
    some ({ e with stage := .running next },
      { d with sessions := d.sessions.startForm e.session })
  | .running (.hit site value next) =>
    some ({ e with stage := .paused site value next .arrived }, d)
  | .paused site value next pause =>
    e.afterMove site value next (pause.move ⟨e.ticket, e.session, site, value⟩ d)
  | .ended _ => none

/-- The evaluation gives up waiting for a reply. -/
def expire? (e : Evaluation) (d : Debugger) : Option (Evaluation × Debugger) :=
  match e.stage with
  | .paused site value next pause => e.afterMove site value next (pause.expire d)
  | _ => none

/-- Every step brings an evaluation nearer to its end, unless it has a prompt
    with a client. -/
theorem position_of_step? {e e' : Evaluation} {d d' : Debugger} (h : e.prompt? = none)
    (stepped : e.step? d = some (e', d')) :
    Prod.Lex Run.Follows (· < ·) e'.position e.position := by
  obtain ⟨ticket, session, stage⟩ := e
  cases stage with
  | running rest =>
    cases rest with
    | done result =>
      cases stepped
      exact Prod.Lex.right _ (by decide)
    | poll next =>
      cases stepped
      exact Prod.Lex.left _ _ (.poll _)
    | formStart next =>
      cases stepped
      exact Prod.Lex.left _ _ .formStart
    | hit site value next =>
      cases stepped
      exact Prod.Lex.right _ (by decide)
  | paused site value next pause =>
    simp only [step?] at stepped
    generalize moved : pause.move ⟨ticket, session, site, value⟩ d = m at stepped
    cases m with
    | blocked => cases stepped
    | goTo pause' d'' =>
      cases stepped
      exact Prod.Lex.right _ (Pause.rank_lt_of_move h moved)
    | resume answer d'' =>
      cases stepped
      exact Prod.Lex.left _ _ (.hit _)
  | ended result => cases stepped

/-- Steps until the evaluation has ended, has to wait, or has a prompt with a
    client. -/
def settle (e : Evaluation) (d : Debugger) : Evaluation × Debugger :=
  if free : e.prompt? = none then
    match stepped : e.step? d with
    | none => (e, d)
    | some (e', d') =>
      have := position_of_step? free stepped
      e'.settle d'
  else (e, d)
termination_by e.position
decreasing_by exact this

/-- Makes a step, if one can be made, and settles. -/
def proceed (e : Evaluation) (d : Debugger) : Evaluation × Debugger :=
  match e.step? d with
  | none => (e, d)
  | some (e, d) => e.settle d

/-- Goes on without a reply that is not there. -/
def proceedUnanswered (e : Evaluation) (d : Debugger) : Evaluation × Debugger :=
  match (e.step? d).or (e.expire? d) with
  | none => (e, d)
  | some (e, d) => e.settle d

end Evaluation

namespace Debugger

/-- The run of a source text. -/
def runOf (code : String) : Run Result :=
  ((evalSource [] code).start []).bind fun (result, _) => .done result

/-- An evaluation of `code` starts in a session. -/
def start (d : Debugger) (session code : String) : Evaluation × Debugger :=
  let (ticket, d) := d.takeTicket
  (⟨ticket, session, .running (runOf code)⟩,
   { d with sessions := d.sessions.begin session ticket })

/-- A breakpoint is reached outside any evaluation of the session. -/
def startAt (d : Debugger) (session : String) (site : Site) (value : Value) :
    Evaluation × Debugger :=
  let (ticket, d) := d.takeTicket
  (⟨ticket, session, .paused site value .done .arrived⟩, d)

end Debugger

end Stepper.Debug
