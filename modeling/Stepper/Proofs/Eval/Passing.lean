/-
  Evaluations in which values pass through breakpoints.

  `body.Passes seen context post` is a triple: when nobody disturbs `body` in
  a context, whatever it asks is among the `seen`, and where it succeeds the
  result and the context after it are as `post` says.  There is one rule for
  each primitive action and for each way to put actions together.
-/
import Stepper.Proofs.Eval.Composition
import Stepper.Proofs.Eval.Trace

namespace Stepper.Eval

variable {α β : Type} {seen : Event → Prop}

/-- When nobody disturbs the run, it asks only what is `seen` and ends so. -/
structure Run.Passes (seen : Event → Prop) (r : Run α) (post : α → Prop) : Prop where
  asks : ∀ event ∈ r.trace, seen event
  ends : post (r.untouched false)

theorem Run.Passes.bind {r : Run α} {f : α → Run β} {post : β → Prop}
    (h : r.Passes seen fun a => (f a).Passes seen post) : (r.bind f).Passes seen post := by
  constructor
  · intro event mem
    rw [trace_bind] at mem
    rcases List.mem_append.1 mem with mem | mem
    · exact h.asks event mem
    · exact h.ends.asks event mem
  · rw [untouched_bind]
    exact h.ends.ends

theorem Run.Passes.mono {r : Run α} {post post' : α → Prop} (h : r.Passes seen post)
    (weaker : ∀ a, post a → post' a) : r.Passes seen post' :=
  ⟨h.asks, weaker _ h.ends⟩

/-- What the action ends with in a context when nobody disturbs it. -/
def Action.outcome (body : Action α) (context : Context) : Except Error α × Context :=
  (body.run.run context : Run (Except Error α × Context)).untouched false

/-- When nobody disturbs the action in a context, it asks only what is `seen`,
    and if it succeeds it ends so. -/
def Action.Passes (seen : Event → Prop) (context : Context) (body : Action α)
    (post : α → Context → Prop) : Prop :=
  (body.run.run context : Run (Except Error α × Context)).Passes seen fun r =>
    ∀ a, r.1 = .ok a → post a r.2

namespace Action

variable {context : Context} {body : Action α} {f : α → Action β} {post post' : α → Context → Prop}

theorem Passes.mono (h : body.Passes seen context post)
    (weaker : ∀ a context', body.outcome context = (.ok a, context') → post a context' →
      post' a context') : body.Passes seen context post' := by
  refine ⟨h.asks, fun a same => weaker a _ ?_ (h.ends a same)⟩
  rw [outcome, ← same]

/-- What asks nothing of interest and succeeds. -/
theorem passes_of_silent {a : α} {context' : Context}
    (silent : (body.run.run context : Run (Except Error α × Context)).trace = [])
    (outcome : body.outcome context = (.ok a, context')) (h : post a context') :
    body.Passes seen context post := by
  unfold Action.outcome at outcome
  refine ⟨fun event mem => ?_, fun b same => ?_⟩
  · rw [silent] at mem
    cases mem
  · rw [outcome] at same ⊢
    cases same
    exact h

theorem passes_pure {a : α} (h : post a context) : (pure a : Action α).Passes seen context post :=
  passes_of_silent rfl rfl h

theorem passes_throw (e : Error) : (throw e : Action α).Passes seen context post :=
  ⟨fun event mem => absurd mem List.not_mem_nil, fun b same => by cases same⟩

theorem Passes.bind {post : β → Context → Prop}
    (h : body.Passes seen context fun a context' => (f a).Passes seen context' post) :
    (body >>= f).Passes seen context post := by
  unfold Passes
  rw [run_bind]
  refine Run.Passes.bind (Run.Passes.mono h ?_)
  rintro ⟨result, context'⟩ continues
  cases result with
  | ok a => exact continues a rfl
  | error e =>
    have fails : (throw e : Action β).Passes seen context' post := passes_throw e
    exact fails

theorem passes_get {post : Context → Context → Prop} (h : post context context) :
    (get : Action Context).Passes seen context post :=
  passes_of_silent rfl rfl h

theorem passes_modify {g : Context → Context} {post : Unit → Context → Prop}
    (h : post () (g context)) : (modify g : Action Unit).Passes seen context post :=
  passes_of_silent rfl rfl h

theorem passes_checkpoint {post : Unit → Context → Prop} (h : post () context) :
    checkpoint.Passes seen context post :=
  passes_of_silent rfl rfl h

theorem passes_breakpoint {place : Coordinate} {now : Moment} {value : Value}
    {post : Value → Context → Prop} (saw : seen (.hit ⟨place, now, .capture context.locals⟩ value))
    (h : post value context) : (breakpoint place now value).Passes seen context post := by
  constructor
  · intro event mem
    rw [List.mem_singleton.1 mem]
    exact saw
  · intro v same
    cases same
    exact h

theorem Passes.thenRestore {restore : Context → Context}
    (h : body.Passes seen context fun a context' => post a (restore context')) :
    (body.thenRestore restore).Passes seen context post := by
  unfold Passes
  rw [run_thenRestore]
  refine Run.Passes.bind (Run.Passes.mono h ?_)
  rintro ⟨result, context'⟩ holds
  exact ⟨fun event mem => absurd mem List.not_mem_nil, holds⟩

theorem passes_ofExcept {r : Except Error α} (h : ∀ a, r = .ok a → post a context) :
    (ofExcept r).Passes seen context post := by
  cases r with
  | ok a => exact passes_pure (h a rfl)
  | error e => exact passes_throw e

theorem Passes.nested (h : body.Passes seen { context with depth := context.depth + 1 }
      fun a context' => post a { context' with depth := context'.depth - 1 }) :
    body.nested.Passes seen context post :=
  Passes.bind (passes_modify (Passes.thenRestore h))

theorem Passes.withLocals {locals : List Binding}
    (h : body.Passes seen { context with locals }
      fun a context' => post a { context' with locals := context.locals }) :
    (body.withLocals locals).Passes seen context post :=
  Passes.bind (passes_get (Passes.bind (passes_modify (Passes.thenRestore h))))

theorem Passes.inScope
    (h : body.Passes seen context fun a context' =>
      post a { context' with locals := context'.locals.take context.locals.length }) :
    body.inScope.Passes seen context post :=
  Passes.bind (passes_get (Passes.thenRestore h))

end Action

end Stepper.Eval
