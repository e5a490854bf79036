/-
  Cancellation comes from outside.

  `Run.Uncancelled post` says that a run ends as `post` says whenever nobody
  tells it that it has been cancelled, neither when it asks nor at a
  breakpoint.  Such a run of the evaluator does not end with `cancelled`
  (`uncancelled_evalSource`), and neither does an expression that is evaluated
  at a breakpoint (`Snapshot.evaluateForm_ne_cancelled`): no form makes that error by
  itself.
-/
import Stepper.Proofs.Eval.Composition

namespace Stepper.Eval

variable {α β : Type}

/-- As long as nobody says that it has been cancelled, the run ends so. -/
def Run.Uncancelled (post : α → Prop) : Run α → Prop
  | .done a => post a
  | .poll next => (next false).Uncancelled post
  | .formStart next => next.Uncancelled post
  | .hit _ _ next => ∀ answer, answer ≠ .error .cancelled → (next answer).Uncancelled post

namespace Run

theorem uncancelled_bind {post : β → Prop} (r : Run α) (f : α → Run β) :
    (r.bind f).Uncancelled post ↔ r.Uncancelled fun a => (f a).Uncancelled post := by
  induction r with
  | done a => rfl
  | poll next ih => exact ih false
  | formStart next ih => exact ih
  | hit site value next ih => exact forall_congr' fun answer => imp_congr_right fun _ => ih answer

theorem Uncancelled.mono {post post' : α → Prop} {r : Run α} (h : r.Uncancelled post)
    (weaker : ∀ a, post a → post' a) : r.Uncancelled post' := by
  induction r with
  | done a => exact weaker a h
  | poll next ih => exact ih false h
  | formStart next ih => exact ih h
  | hit site value next ih => exact fun answer fine => ih answer (h answer fine)

theorem Uncancelled.untouched {post : α → Prop} {r : Run α} (h : r.Uncancelled post) :
    post (r.untouched false) := by
  induction r with
  | done a => exact h
  | poll next ih => exact ih false h
  | formStart next ih => exact ih h
  | hit site value next ih => exact ih (.ok value) (h (.ok value) fun same => by cases same)

end Run

/-! ## Actions -/

/-- As long as nobody says that it has been cancelled, the action does not
    fail for that reason. -/
def Action.Uncancelled (body : Action α) : Prop :=
  ∀ context, (body.run.run context).Uncancelled fun r => r.1 ≠ .error .cancelled

namespace Action

theorem uncancelled_pure (a : α) : (pure a : Action α).Uncancelled :=
  fun _ same => by cases same

theorem uncancelled_throw {e : Error} (h : e ≠ .cancelled) :
    (throw e : Action α).Uncancelled :=
  fun _ same => h (Except.error.inj same)

theorem Uncancelled.bind {body : Action α} {f : α → Action β} (h : body.Uncancelled)
    (rest : ∀ a, (f a).Uncancelled) : (body >>= f).Uncancelled := by
  intro context
  rw [run_bind, Run.uncancelled_bind]
  refine (h context).mono ?_
  rintro ⟨result, context'⟩ fine
  cases result with
  | ok a => exact rest a context'
  | error e => exact fun same => fine (Except.error.inj same ▸ rfl)

theorem uncancelled_breakpoint (place : Coordinate) (now : Moment) (value : Value) :
    (breakpoint place now value).Uncancelled := by
  intro context answer fine
  cases answer with
  | ok value => exact uncancelled_pure value context
  | error e => exact uncancelled_throw (fun same => fine (same ▸ rfl)) context

theorem Uncancelled.thenRestore {body : Action α} (h : body.Uncancelled)
    (restore : Context → Context) : (body.thenRestore restore).Uncancelled := by
  intro context
  rw [run_thenRestore, Run.uncancelled_bind]
  exact h context

theorem compositional_uncancelled : Compositional Uncancelled where
  pure := uncancelled_pure
  throw := uncancelled_throw
  bind := Uncancelled.bind
  get _ same := by cases same
  modify _ _ same := by cases same
  checkpoint _ same := by cases same
  announce _ same := by cases same
  breakpoint := uncancelled_breakpoint
  thenRestore h := h.thenRestore _

end Action

theorem uncancelled_evalSource (now : Moment) (source : String) :
    (evalSource now source).Uncancelled :=
  Action.compositional_uncancelled.evalSource now source

theorem Snapshot.evaluateForm_ne_cancelled (s : Snapshot) (now : Moment) (form : Syntax.Form) :
    s.evaluateForm now form false ≠ .error .cancelled :=
  (Action.compositional_uncancelled.eval form .root now ⟨s.bindings, 0⟩).untouched

end Stepper.Eval
