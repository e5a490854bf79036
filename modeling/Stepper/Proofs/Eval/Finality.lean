/-
  Errors are final.

  An evaluation handles no error.  Whatever it is told to fail with at a
  breakpoint is its result, and so is `cancelled` once it has been told that
  it has been cancelled; either way it asks nothing more (`Run.Final`,
  `final_evalSource`).  So whoever lets values pass through breakpoints is
  asked what the trace lists, or a first part of it when the evaluation is
  cancelled (`Final.asked_isPrefix`).
-/
import Stepper.Proofs.Eval.Composition
import Stepper.Proofs.Eval.Trace

namespace Stepper.Eval

variable {α β σ : Type}

/-- An error of which the run is told ends it at once, with a result that
    `ends` allows for it. -/
def Run.Final (ends : Error → α → Prop) : Run α → Prop
  | .done _ => True
  | .poll next => (∃ a, next true = .done a ∧ ends .cancelled a) ∧ (next false).Final ends
  | .formStart next => next.Final ends
  | .hit _ _ next =>
    (∀ e, ∃ a, next (.error e) = .done a ∧ ends e a) ∧ ∀ value, (next (.ok value)).Final ends

namespace Run

variable {ends : Error → α → Prop} {ends' : Error → β → Prop}

theorem Final.bind {r : Run α} {f : α → Run β} (h : r.Final ends)
    (fails : ∀ e a, ends e a → ∃ b, f a = .done b ∧ ends' e b) (rest : ∀ a, (f a).Final ends') :
    (r.bind f).Final ends' := by
  have further : ∀ {e : Error} {r : Run α}, (∃ a, r = .done a ∧ ends e a) →
      ∃ b, r.bind f = .done b ∧ ends' e b := by
    rintro e r ⟨a, rfl, ended⟩
    exact fails e a ended
  induction r with
  | done a => exact rest a
  | poll next ih => exact ⟨further h.1, ih false h.2⟩
  | formStart next ih => exact ih h
  | hit site value next ih =>
    exact ⟨fun e => further (h.1 e), fun value => ih (.ok value) (h.2 value)⟩

/-! ## What is asked -/

/-- The forms and breakpoints of which a handler is told. -/
def asked (handler : Handler σ) : Run α → σ → List Event
  | done _, _ => []
  | poll next, s => (next (handler.tripped s).1).asked handler (handler.tripped s).2
  | formStart next, s => .formStart :: next.asked handler (handler.formStart s)
  | hit site value next, s =>
    .hit site value ::
      (next (handler.breakpoint site value s).1).asked handler (handler.breakpoint site value s).2

/-- Values pass through breakpoints, whatever else happens there. -/
def Handler.LetsPass (handler : Handler σ) : Prop :=
  ∀ site value s, (handler.breakpoint site value s).1 = .ok value

theorem Final.asked_isPrefix {r : Run α} (h : r.Final ends) {handler : Handler σ}
    (passes : handler.LetsPass) (s : σ) : r.asked handler s <+: r.trace := by
  induction r generalizing s with
  | done a => exact List.prefix_rfl
  | poll next ih =>
    simp only [asked, trace]
    cases (handler.tripped s).1 with
    | false => exact ih false h.2 _
    | true =>
      obtain ⟨a, same, -⟩ := h.1
      rw [same]
      exact List.nil_prefix
  | formStart next ih => exact (List.prefix_cons_inj _).2 (ih h _)
  | hit site value next ih =>
    simp only [asked, trace, passes site value s]
    exact (List.prefix_cons_inj _).2 (ih (.ok value) (h.2 value) _)

end Run

/-! ## Actions -/

/-- Errors of which the action is told are final. -/
def Action.Final (body : Action α) : Prop :=
  ∀ context, (body.run.run context).Final fun e r => r.1 = .error e

namespace Action

theorem Final.bind {body : Action α} {f : α → Action β} (h : body.Final)
    (rest : ∀ a, (f a).Final) : (body >>= f).Final := by
  intro context
  rw [run_bind]
  refine (h context).bind ?_ ?_
  · rintro e ⟨_, context'⟩ rfl
    exact ⟨_, rfl, rfl⟩
  · rintro ⟨result, context'⟩
    cases result with
    | ok a => exact rest a context'
    | error e => exact trivial

theorem final_breakpoint (place : Coordinate) (now : Moment) (value : Value) :
    (breakpoint place now value).Final :=
  fun _ => ⟨fun _ => ⟨_, rfl, rfl⟩, fun _ => trivial⟩

theorem Final.thenRestore {body : Action α} (h : body.Final) (restore : Context → Context) :
    (body.thenRestore restore).Final := by
  intro context
  rw [run_thenRestore]
  refine (h context).bind ?_ fun _ => trivial
  rintro e ⟨_, context'⟩ rfl
  exact ⟨_, rfl, rfl⟩

theorem compositional_final : Compositional Final where
  pure _ _ := trivial
  throw _ _ := trivial
  bind := Final.bind
  get _ := trivial
  modify _ _ := trivial
  checkpoint _ := ⟨⟨_, rfl, rfl⟩, trivial⟩
  announce _ := trivial
  breakpoint := final_breakpoint
  thenRestore h := h.thenRestore _

end Action

theorem final_evalSource (now : Moment) (source : String) : (evalSource now source).Final :=
  Action.compositional_final.evalSource now source

end Stepper.Eval
