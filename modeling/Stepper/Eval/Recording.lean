/-
  Recorded evaluations.

  `Plan.handler` answers the questions of a run by a plan that is made
  beforehand, and keeps a record of what it was asked.
-/
import Stepper.Eval.Evaluator

namespace Stepper.Eval

/-- Something that happened during a run. -/
inductive Event where
  | formStart
  | hit (site : Site) (value : Value)

/-- What to do at breakpoints, which are counted from one. -/
structure Plan where
  /-- The breakpoint at which the evaluation is cancelled. -/
  cancelAt : Option Nat
  /-- The breakpoint at which to fail. -/
  failAt : Option Nat
  /-- The values with which to go on at the first breakpoints. -/
  replacements : List Value

/-- The plan that lets everything pass. -/
def Plan.pass : Plan := ⟨none, none, []⟩

/-- What has happened so far. -/
structure Recording where
  tripped : Bool
  hits : Nat
  /-- Last event first. -/
  events : List Event

/-- Nothing has happened. -/
def Recording.start (tripped : Bool) : Recording := ⟨tripped, 0, []⟩

/-- What the plan says about the `n`-th breakpoint. -/
def Plan.answer (plan : Plan) (n : Nat) (value : Value) : Result :=
  if plan.failAt = some n then .error (.control "hook failed")
  else .ok (plan.replacements[n - 1]?.getD value)

/-- Answers by the plan and records. -/
def Plan.handler (plan : Plan) : Run.Handler Recording where
  tripped r := (r.tripped, r)
  formStart r := { r with events := .formStart :: r.events }
  breakpoint site value r :=
    let n := r.hits + 1
    (plan.answer n value,
     ⟨r.tripped || plan.cancelAt = some n, n, .hit site value :: r.events⟩)

/-- Evaluates a source text in a context under a plan. -/
def Plan.evaluate (plan : Plan) (source : String) (context : Context) (r : Recording) :
    (Result × Context) × Recording :=
  ((evalSource [] source).run.run context : Run (Result × Context)).under plan.handler r

end Stepper.Eval
