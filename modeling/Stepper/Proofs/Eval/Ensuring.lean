/-
  What evaluations ensure, however they are answered.

  `body.Ensures fair context post fails` is a triple: in a context, as long as
  breakpoints are answered as is `fair`, `body` succeeds as `post` says or
  fails as `fails` says.  The postcondition is also told the number of checks
  whether the evaluation has been cancelled, one for each list and vector that
  is evaluated.  There is one rule for each primitive action and for each way
  to put actions together; `Run.Ensures.under` says what follows for the result
  that a handler sees.
-/
import Stepper.Proofs.Eval.Calls

namespace Stepper.Eval

variable {α β σ : Type}

/-! ## Runs -/

/-- However the questions are answered, breakpoints as is `fair`, the run ends
    as `post` says of the number of its checks and the result. -/
def Run.Ensures (fair : Site → Value → Result → Prop) : (post : Nat → α → Prop) → Run α → Prop
  | post, .done a => post 0 a
  | post, .poll next => ∀ tripped, (next tripped).Ensures fair fun n => post (n + 1)
  | post, .formStart next => next.Ensures fair post
  | post, .hit site value next =>
    ∀ answer, fair site value answer → (next answer).Ensures fair post

/-- Whether the question is a check for cancellation. -/
def Call.isPoll : Call → Bool
  | poll _ => true
  | _ => false

/-- The handler answers breakpoints as is fair. -/
def Run.Handler.IsFair (fair : Site → Value → Result → Prop) (handler : Run.Handler σ) : Prop :=
  ∀ site value s, fair site value (handler.breakpoint site value s).1

namespace Run

variable {fair : Site → Value → Result → Prop} {r : Run α}

theorem Ensures.mono {post post' : Nat → α → Prop} (h : r.Ensures fair post)
    (weaker : ∀ n a, post n a → post' n a) : r.Ensures fair post' := by
  induction r generalizing post post' with
  | done a => exact weaker 0 a h
  | poll next ih =>
    intro tripped
    exact ih tripped (h tripped) fun n a => weaker (n + 1) a
  | formStart next ih => exact ih h weaker
  | hit site value next ih =>
    intro answer just
    exact ih answer (h answer just) weaker

theorem Ensures.bind {post : Nat → β → Prop} {f : α → Run β}
    (h : r.Ensures fair fun n a => (f a).Ensures fair fun m => post (n + m)) :
    (r.bind f).Ensures fair post := by
  induction r generalizing post with
  | done a =>
    simp only [Ensures, Nat.zero_add] at h
    exact h
  | poll next ih =>
    intro tripped
    refine ih tripped ((h tripped).mono fun n a continues => ?_)
    simpa [Nat.add_right_comm] using continues
  | formStart next ih => exact ih h
  | hit site value next ih =>
    intro answer just
    exact ih answer (h answer just)

/-- What a handler that is fair gets. -/
theorem Ensures.under {post : Nat → α → Prop} (h : r.Ensures fair post) {handler : Handler σ}
    (just : handler.IsFair fair) (s : σ) :
    post ((r.calls handler s).countP Call.isPoll) (r.under handler s).1 := by
  induction r generalizing post s with
  | done a => exact h
  | poll next ih =>
    rw [calls, List.countP_cons_of_pos rfl]
    exact ih _ (h _) _
  | formStart next ih =>
    rw [calls, List.countP_cons_of_neg (by decide)]
    exact ih h _
  | hit site value next ih =>
    rw [calls, List.countP_cons_of_neg (by simp [Call.isPoll])]
    exact ih _ (h _ (just site value s)) _

end Run

/-! ## Actions -/

/-- In a context, when breakpoints are answered as is `fair`, the action
    succeeds as `post` says of the number of its checks, the result and the
    context, or it fails as `fails` says. -/
def Action.Ensures (fair : Site → Value → Result → Prop) (context : Context) (body : Action α)
    (post : Nat → α → Context → Prop) (fails : Error → Context → Prop) : Prop :=
  (body.run.run context : Run (Except Error α × Context)).Ensures fair fun n r =>
    match r.1 with
    | .ok a => post n a r.2
    | .error e => fails e r.2

namespace Action

variable {fair : Site → Value → Result → Prop} {context : Context} {body : Action α}
  {post post' : Nat → α → Context → Prop} {fails fails' : Error → Context → Prop}

theorem Ensures.mono (h : body.Ensures fair context post fails)
    (weaker : ∀ n a c, post n a c → post' n a c) (weaker' : ∀ e c, fails e c → fails' e c) :
    body.Ensures fair context post' fails' := by
  refine Run.Ensures.mono h ?_
  rintro n ⟨result, c⟩ holds
  cases result with
  | ok a => exact weaker n a c holds
  | error e => exact weaker' e c holds

theorem ensures_pure {a : α} (h : post 0 a context) :
    (pure a : Action α).Ensures fair context post fails := h

theorem ensures_throw {e : Error} (h : fails e context) :
    (throw e : Action α).Ensures fair context post fails := h

theorem Ensures.bind {f : α → Action β} {post : Nat → β → Context → Prop}
    (h : body.Ensures fair context
      (fun n a c => (f a).Ensures fair c (fun m => post (n + m)) fails) fails) :
    (body >>= f).Ensures fair context post fails := by
  unfold Ensures
  rw [run_bind]
  refine Run.Ensures.bind (Run.Ensures.mono h ?_)
  rintro n ⟨result, c⟩ holds
  cases result with
  | ok a => exact holds
  | error e => exact holds

theorem Ensures.seq {f : α → Action β} {post : Nat → β → Context → Prop}
    {first : Nat → α → Context → Prop} (h : body.Ensures fair context first fails)
    (rest : ∀ n a c, first n a c → (f a).Ensures fair c (fun m => post (n + m)) fails) :
    (body >>= f).Ensures fair context post fails :=
  Ensures.bind (h.mono rest fun _ _ failed => failed)

theorem ensures_get_bind {f : Context → Action β} {post : Nat → β → Context → Prop}
    (h : (f context).Ensures fair context post fails) :
    ((get : Action Context) >>= f).Ensures fair context post fails := by
  unfold Ensures
  rw [run_bind]
  exact h

theorem ensures_modify_bind {g : Context → Context} {f : Unit → Action β}
    {post : Nat → β → Context → Prop} (h : (f ()).Ensures fair (g context) post fails) :
    ((modify g : Action Unit) >>= f).Ensures fair context post fails := by
  unfold Ensures
  rw [run_bind]
  exact h

theorem ensures_checkpoint {post : Nat → Unit → Context → Prop} (h : post 1 () context)
    (cancelled : fails .cancelled context) : checkpoint.Ensures fair context post fails := by
  intro tripped
  cases tripped with
  | false => exact h
  | true => exact cancelled

theorem ensures_announce {post : Nat → Unit → Context → Prop} (h : post 0 () context) :
    announce.Ensures fair context post fails := h

theorem ensures_breakpoint {place : Coordinate} {now : Moment} {value : Value}
    {post : Nat → Value → Context → Prop}
    (goes : ∀ v, fair ⟨place, now, .capture context.locals⟩ value (.ok v) → post 0 v context)
    (stops : ∀ e, fair ⟨place, now, .capture context.locals⟩ value (.error e) → fails e context) :
    (breakpoint place now value).Ensures fair context post fails := by
  intro answer just
  cases answer with
  | ok v => exact goes v just
  | error e => exact stops e just

theorem Ensures.thenRestore {restore : Context → Context}
    (h : body.Ensures fair context (fun n a c => post n a (restore c))
      fun e c => fails e (restore c)) :
    (body.thenRestore restore).Ensures fair context post fails := by
  unfold Ensures
  rw [run_thenRestore]
  refine Run.Ensures.bind (Run.Ensures.mono h ?_)
  rintro n ⟨result, c⟩ holds
  cases result with
  | ok a => exact holds
  | error e => exact holds

theorem ensures_ofExcept {r : Except Error α} (goes : ∀ a, r = .ok a → post 0 a context)
    (stops : ∀ e, r = .error e → fails e context) :
    (ofExcept r).Ensures fair context post fails := by
  cases r with
  | ok a => exact ensures_pure (goes a rfl)
  | error e => exact ensures_throw (stops e rfl)

theorem Ensures.nested
    (h : body.Ensures fair { context with depth := context.depth + 1 }
      (fun n a c => post n a { c with depth := c.depth - 1 })
      fun e c => fails e { c with depth := c.depth - 1 }) :
    body.nested.Ensures fair context post fails :=
  ensures_modify_bind (Ensures.thenRestore h)

theorem Ensures.withLocals {locals : List Binding}
    (h : body.Ensures fair { context with locals }
      (fun n a c => post n a { c with locals := context.locals })
      fun e c => fails e { c with locals := context.locals }) :
    (body.withLocals locals).Ensures fair context post fails :=
  ensures_get_bind (ensures_modify_bind (Ensures.thenRestore h))

theorem Ensures.inScope
    (h : body.Ensures fair context
      (fun n a c => post n a { c with locals := c.locals.take context.locals.length })
      fun e c => fails e { c with locals := c.locals.take context.locals.length }) :
    body.inScope.Ensures fair context post fails :=
  ensures_get_bind (Ensures.thenRestore h)

end Action

end Stepper.Eval
