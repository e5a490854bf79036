/-
  Outcomes of evaluations that nobody disturbs.

  The outcome of an action that is put together from others comes from their
  outcomes: there is one rule for each way to do so, and one for symbols that
  are bound.
-/
import Stepper.Proofs.Eval.Passing

namespace Stepper.Eval

open Stepper.Syntax (Form)

variable {α β : Type}

theorem lookup?_append_singleton (name : String) (value : Value) (locals : List Binding) :
    lookup? name (locals ++ [(name, value)]) = some value := by
  simp [lookup?]

namespace Action

variable {body : Action α} {f : α → Action β} {context after : Context}

theorem outcome_bind (body : Action α) (f : α → Action β) (context : Context) :
    (body >>= f).outcome context = match body.outcome context with
      | (.ok a, after) => (f a).outcome after
      | (.error e, after) => (.error e, after) := by
  unfold outcome
  rw [run_bind, Run.untouched_bind]
  split <;> simp_all [Run.untouched]

theorem outcome_bind_ok {a : α} (h : body.outcome context = (.ok a, after)) :
    (body >>= f).outcome context = (f a).outcome after := by
  rw [outcome_bind, h]

theorem outcome_bind_error {e : Error} (h : body.outcome context = (.error e, after)) :
    (body >>= f).outcome context = (.error e, after) := by
  rw [outcome_bind, h]

theorem outcome_pure (a : α) (context : Context) :
    (pure a : Action α).outcome context = (.ok a, context) := rfl

theorem outcome_get_bind (f : Context → Action β) (context : Context) :
    ((get : Action Context) >>= f).outcome context = (f context).outcome context := by
  rw [outcome_bind]
  rfl

theorem outcome_checkpoint_bind (f : Unit → Action β) (context : Context) :
    (checkpoint >>= f).outcome context = (f ()).outcome context := by
  rw [outcome_bind]
  rfl

theorem outcome_announce_bind (f : Unit → Action β) (context : Context) :
    (announce >>= f).outcome context = (f ()).outcome context := by
  rw [outcome_bind]
  rfl

theorem outcome_addBinding_bind (name : String) (value : Value) (f : Unit → Action β)
    (context : Context) : (addBinding name value >>= f).outcome context =
      (f ()).outcome { context with locals := context.locals ++ [(name, value)] } := by
  rw [outcome_bind]
  rfl

theorem outcome_thenRestore (body : Action α) (restore : Context → Context) (context : Context) :
    (body.thenRestore restore).outcome context =
      ((body.outcome context).1, restore (body.outcome context).2) := by
  unfold outcome
  rw [run_thenRestore, Run.untouched_bind]
  rfl

theorem outcome_nested {r : Except Error α}
    (h : body.outcome { context with depth := context.depth + 1 } =
      (r, { context with depth := context.depth + 1 })) :
    body.nested.outcome context = (r, context) := by
  refine (outcome_thenRestore body _ _).trans ?_
  rw [h]
  rfl

theorem outcome_withLocals {r : Except Error α} {locals : List Binding}
    (h : body.outcome { context with locals } = (r, { context with locals })) :
    (body.withLocals locals).outcome context = (r, context) := by
  refine (outcome_thenRestore body _ _).trans ?_
  rw [h]

theorem outcome_inScope {r : Except Error α} {more : List Binding}
    (h : body.outcome context = (r, { context with locals := context.locals ++ more })) :
    body.inScope.outcome context = (r, context) := by
  refine (outcome_thenRestore body _ _).trans ?_
  simp [h]

end Action

theorem outcome_symbol {name : String} {value : Value} {context : Context}
    (found : lookup? name context.locals = some value) (room : Nat) (place : Coordinate)
    (now : Moment) :
    (evalForm (room + 1) (.symbol name) place now).outcome context = (.ok value, context) := by
  apply Action.outcome_nested
  simp [evalInner, evalSymbol, Action.outcome_get_bind, found, Action.outcome_pure]

end Stepper.Eval
