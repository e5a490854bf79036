/-
  What a run asks when nothing is changed.

  `Run.trace` lists the top-level forms and the breakpoints that a run comes
  to when values pass through breakpoints.  It is what a recording under the
  plan that lets everything pass contains (`events_pass`).
-/
import Stepper.Eval.Recording

namespace Stepper.Eval

variable {α β : Type}

namespace Run

theorem untouched_bind (tripped : Bool) (r : Run α) (f : α → Run β) :
    (r.bind f).untouched tripped = (f (r.untouched tripped)).untouched tripped := by
  induction r with
  | done a => rfl
  | poll next ih => exact ih tripped
  | formStart next ih => exact ih
  | hit site value next ih => exact ih (.ok value)

/-- The forms and breakpoints that are come to, in order, when values pass
    through breakpoints and nothing is cancelled. -/
def trace : Run α → List Event
  | done _ => []
  | poll next => (next false).trace
  | formStart next => .formStart :: next.trace
  | hit site value next => .hit site value :: (next (.ok value)).trace

theorem trace_bind (r : Run α) (f : α → Run β) :
    (r.bind f).trace = r.trace ++ (f (r.untouched false)).trace := by
  induction r with
  | done a => rfl
  | poll next ih => exact ih false
  | formStart next ih => exact congrArg (.formStart :: ·) ih
  | hit site value next ih => exact congrArg (.hit site value :: ·) (ih (.ok value))

theorem trace_bind_done (r : Run α) (f : α → β) :
    (r.bind fun a => .done (f a)).trace = r.trace := by
  rw [trace_bind, trace, List.append_nil]

end Run

/-- The plan that lets everything pass records the trace. -/
theorem events_under_pass (r : Run α) (recording : Recording) (free : recording.tripped = false) :
    (r.under Plan.pass.handler recording).2.events = r.trace.reverse ++ recording.events := by
  induction r generalizing recording with
  | done a => rfl
  | poll next ih =>
    have polled : ((Run.poll next).under Plan.pass.handler recording) =
        (next recording.tripped).under Plan.pass.handler recording := rfl
    rw [polled, free]
    exact ih false recording free
  | formStart next ih =>
    refine (ih { recording with events := .formStart :: recording.events } free).trans ?_
    rw [Run.trace, List.reverse_cons, List.append_assoc]
    rfl
  | hit site value next ih =>
    have untripped : (recording.tripped || decide (Plan.pass.cancelAt = some (recording.hits + 1)))
        = false := by
      rw [free]
      rfl
    refine (ih (.ok value) ⟨_, recording.hits + 1, .hit site value :: recording.events⟩
      untripped).trans ?_
    rw [Run.trace, List.reverse_cons, List.append_assoc]
    rfl

/-- What a recording of a program contains that nobody disturbs. -/
theorem events_pass (source : String) (context : Context) :
    (Plan.pass.evaluate source context (.start false)).2.events.reverse =
      Run.trace ((evalSource [] source).run.run context : Run (Result × Context)) := by
  rw [Plan.evaluate, events_under_pass _ _ rfl, Recording.start, List.append_nil,
    List.reverse_reverse]

end Stepper.Eval
