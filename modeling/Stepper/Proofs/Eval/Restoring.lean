/-
  Evaluations leave no trace in their context.

  Bindings come and go, calls have bindings of their own, and every form is
  one level deeper than the one around it.  Yet when an evaluation is over,
  the context is the one in which it began, whatever was answered and however
  it ended (`evaluation_restores_context`).
-/
import Stepper.Proofs.Eval.Regime

namespace Stepper.Eval

open Stepper.Syntax (Form)

variable {σ : Type}

namespace Regime

/-- The regime that allows everything. -/
def any : Regime := lenient (fun _ => True) fun _ => True

theorem lawful_any : any.Lawful := lawful_lenient (fun _ _ => trivial) fun _ _ => trivial

theorem layer_any (form : Form) : any.Layer (fun _ => True) form := by
  apply layer_of_items <;> simp [any, lenient]

theorem keeps_any (room : Nat) : any.Keeps (fun _ => True) (evalForm room) := by
  induction room with
  | zero => exact fun _ _ _ _ => evaluates_throw trivial
  | succ room ih =>
    intro form context base place now _ _
    have enters : any.Enters (evalForm room) :=
      lawful_any.enters_of_forall ih fun _ _ _ _ => trivial
    exact lawful_any.evalNested ih enters (layer_any form) scope_lenient

theorem evaluates_any (form : Form) (place : Coordinate) (now : Moment) (context : Context)
    (base : Nat) : any.Evaluates context base (eval form place now) :=
  Action.ensures_get_bind (keeps_any _ place now trivial scope_lenient)

/-- What is evaluated in the regime leaves its context as it was. -/
theorem Evaluates.restores {context : Context} {base : Nat} {body : Action Value}
    (h : any.Evaluates context base body) (handler : Run.Handler σ) (s : σ) :
    ((body.run.run context : Run (Result × Context)).under handler s).1.2 = context := by
  have fair : handler.IsFair any.fair := fun _ _ _ => trivial
  have ended := Run.Ensures.under h fair s
  split at ended
  · exact ended.1
  · exact ended.1

end Regime

/-- Evaluations restore their context.  In any context, at any depth, and
    whatever is answered to the questions whether it has been cancelled and at
    the breakpoints, the bindings and the depth are the same after the
    evaluation of a form or a program as before, with a value or an error as
    its result. -/
theorem evaluation_restores_context (handler : Run.Handler σ) (s : σ) (context : Context)
    (now : Moment) :
    (∀ form place, (((eval form place now).run.run context : Run (Result × Context)).under
      handler s).1.2 = context) ∧
    ∀ forms, (((evalForms now forms).run.run context : Run (Result × Context)).under
      handler s).1.2 = context := by
  constructor
  · intro form place
    exact (Regime.evaluates_any form place now context 0).restores handler s
  · intro forms
    have program : Regime.any.Evaluates context 0 (evalForms now forms) := by
      refine Regime.lawful_any.evalForms (fun form _ base now _ => ?_) Regime.scope_lenient
      exact Regime.evaluates_any form .root now context base
    exact program.restores handler s

end Stepper.Eval
