/-
  Runs that track each other.

  A run tracks another when both ask the same questions in the same order, but
  for breakpoints that only the first one comes to, and both end alike as far
  as `post` says; the first one may also end early where it is `spent`.  Who
  lets values pass and answers the other questions alike does not learn which
  of the two is evaluated (`Tracks.under`).

  For actions there is one rule for each primitive action and for each way to
  put actions together; an action is `spent` when it is nested too deeply.
-/
import Stepper.Proofs.Eval.Correspondence
import Stepper.Proofs.Eval.Finality

namespace Stepper.Eval

variable {α β γ δ σ τ : Type}

/-- The first run asks what the second one asks, and more breakpoints, until
    both end as `post` says or the first one is `spent`. -/
inductive Run.Tracks (spent : α → Prop) (post : α → β → Prop) : Run α → Run β → Prop
  | done {a b} (h : post a b) : Tracks spent post (.done a) (.done b)
  | stop {a r'} (h : spent a) : Tracks spent post (.done a) r'
  | poll {next next'} (h : ∀ tripped, Tracks spent post (next tripped) (next' tripped)) :
    Tracks spent post (.poll next) (.poll next')
  | formStart {next next'} (h : Tracks spent post next next') :
    Tracks spent post (.formStart next) (.formStart next')
  | hit {site site' value value' next next'}
    (h : Tracks spent post (next (.ok value)) (next' (.ok value'))) :
    Tracks spent post (.hit site value next) (.hit site' value' next')
  /-- A breakpoint that only the first one comes to. -/
  | extra {site value next r'} (h : Tracks spent post (next (.ok value)) r') :
    Tracks spent post (.hit site value next) r'

namespace Run

variable {spent : α → Prop} {post : α → β → Prop} {r : Run α} {r' : Run β}

theorem Tracks.bind {spent' : γ → Prop} {post' : γ → δ → Prop} {f : α → Run γ} {f' : β → Run δ}
    (h : r.Tracks spent post r') (ends : ∀ a, spent a → ∃ c, f a = .done c ∧ spent' c)
    (rest : ∀ a b, post a b → (f a).Tracks spent' post' (f' b)) :
    (r.bind f).Tracks spent' post' (r'.bind f') := by
  induction h with
  | done h => exact rest _ _ h
  | stop h =>
    obtain ⟨c, same, stopped⟩ := ends _ h
    rw [Run.bind, same]
    exact .stop stopped
  | poll _ ih => exact .poll ih
  | formStart _ ih => exact .formStart ih
  | hit _ ih => exact .hit ih
  | extra _ ih => exact .extra ih

/-- Whenever the run asks, the handler answers that it has been cancelled if
    the token says so for the check at hand. -/
def Heeds (handler : Handler σ) : Run α → (token : Nat → Bool) → σ → Prop
  | done _, _, _ => True
  | poll next, token, s =>
    (handler.tripped s).1 = token 0 ∧
      (next (handler.tripped s).1).Heeds handler (fun check => token (check + 1))
        (handler.tripped s).2
  | formStart next, token, s => next.Heeds handler token (handler.formStart s)
  | hit site value next, token, s =>
    (next (handler.breakpoint site value s).1).Heeds handler token
      (handler.breakpoint site value s).2

/-- Who lets values pass and answers both runs by the same token sees them end
    alike, unless the first one is spent before. -/
theorem Tracks.under {handler : Handler σ} {handler' : Handler τ} (h : r.Tracks spent post r')
    (passes : handler.LetsPass) (passes' : handler'.LetsPass) {token : Nat → Bool} {s : σ} {s' : τ}
    (heeds : r.Heeds handler token s) (heeds' : r'.Heeds handler' token s') :
    spent (r.under handler s).1 ∨ post (r.under handler s).1 (r'.under handler' s').1 := by
  induction h generalizing token s s' with
  | done h => exact .inr h
  | stop h => exact .inl h
  | poll _ ih =>
    obtain ⟨answer, heeds⟩ := heeds
    obtain ⟨answer', heeds'⟩ := heeds'
    simp only [Run.under]
    rw [answer] at heeds ⊢
    rw [answer'] at heeds' ⊢
    exact ih _ heeds heeds'
  | formStart _ ih => exact ih heeds heeds'
  | hit _ ih =>
    simp only [Heeds, passes _ _ s] at heeds
    simp only [Heeds, passes' _ _ s'] at heeds'
    simp only [Run.under, passes _ _ s, passes' _ _ s']
    exact ih heeds heeds'
  | extra _ ih =>
    simp only [Heeds, passes _ _ s] at heeds
    simp only [Run.under, passes _ _ s]
    exact ih heeds heeds'

/-! ## When nobody watches -/

/-- Values pass through breakpoints, and it has been cancelled or not. -/
def Handler.unwatched (tripped : Bool) : Handler Unit where
  tripped _ := (tripped, ())
  formStart _ := ()
  breakpoint _ value _ := (.ok value, ())

theorem letsPass_unwatched (tripped : Bool) : (Handler.unwatched tripped).LetsPass :=
  fun _ _ _ => rfl

theorem untouched_eq_under (tripped : Bool) (r : Run α) :
    r.untouched tripped = (r.under (Handler.unwatched tripped) ()).1 := by
  induction r with
  | done a => rfl
  | poll next ih => exact ih tripped
  | formStart next ih => exact ih
  | hit site value next ih => exact ih (.ok value)

theorem heeds_unwatched (tripped : Bool) (r : Run α) :
    r.Heeds (Handler.unwatched tripped) (fun _ => tripped) () := by
  induction r with
  | done a => trivial
  | poll next ih => exact ⟨rfl, ih tripped⟩
  | formStart next ih => exact ih
  | hit site value next ih => exact ih (.ok value)

theorem Tracks.untouched (h : r.Tracks spent post r') (tripped : Bool) :
    spent (r.untouched tripped) ∨ post (r.untouched tripped) (r'.untouched tripped) := by
  rw [untouched_eq_under, untouched_eq_under]
  exact h.under (letsPass_unwatched _) (letsPass_unwatched _) (heeds_unwatched _ _)
    (heeds_unwatched _ _)

end Run

/-! ## Actions -/

/-- The evaluation was nested too deeply. -/
def TooDeep (r : Except Error α × Context) : Prop := r.1 = .error (.depthExceeded maxDepth)

/-- Two actions have ended: with results as `post` says, or with one error. -/
inductive Ends (post : α → Context → β → Context → Prop) :
    Except Error α × Context → Except Error β × Context → Prop
  | ok {a b context context'} (h : post a context b context') :
    Ends post (.ok a, context) (.ok b, context')
  | error (e : Error) (context context' : Context) :
    Ends post (.error e, context) (.error e, context')

/-- In their contexts the first action tracks the second one. -/
def Action.Tracks (context context' : Context) (body : Action α) (body' : Action β)
    (post : α → Context → β → Context → Prop) : Prop :=
  (body.run.run context : Run (Except Error α × Context)).Tracks TooDeep (Ends post)
    (body'.run.run context' : Run (Except Error β × Context))

namespace Action

variable {context context' : Context} {body : Action α} {body' : Action β}
  {post : α → Context → β → Context → Prop} {f : α → Action γ} {f' : β → Action δ}

theorem tracks_pure {a : α} {b : β} (h : post a context b context') :
    Tracks context context' (pure a) (pure b) post :=
  .done (.ok h)

theorem tracks_throw (e : Error) : Tracks context context' (throw e) (throw e) post :=
  .done (.error e _ _)

theorem tracks_tooDeep : Tracks context context' (throw (.depthExceeded maxDepth)) body' post :=
  .stop rfl

theorem Tracks.mono {post' : α → Context → β → Context → Prop}
    (h : Tracks context context' body body' post)
    (weaker : ∀ a c b c', post a c b c' → post' a c b c') :
    Tracks context context' body body' post' := by
  have ends : (Run.bind (body.run.run context) .done).Tracks TooDeep (Ends post')
      (Run.bind (body'.run.run context') .done) := by
    refine Run.Tracks.bind h (fun r stopped => ⟨r, rfl, stopped⟩) fun a b ended => ?_
    cases ended with
    | ok h => exact .done (.ok (weaker _ _ _ _ h))
    | error e => exact .done (.error e _ _)
  rwa [Run.bind_done, Run.bind_done] at ends

theorem Tracks.bind {post' : γ → Context → δ → Context → Prop}
    (h : Tracks context context' body body' fun a c b c' => Tracks c c' (f a) (f' b) post') :
    Tracks context context' (body >>= f) (body' >>= f') post' := by
  unfold Tracks
  rw [run_bind, run_bind]
  refine Run.Tracks.bind h ?_ ?_
  · rintro ⟨result, c⟩ rfl
    exact ⟨_, rfl, rfl⟩
  · rintro _ _ (continues | e)
    · exact continues
    · exact .done (.error e _ _)

theorem tracks_get {post : Context → Context → Context → Context → Prop}
    (h : post context context context' context') :
    Tracks context context' (get : Action Context) (get : Action Context) post :=
  .done (.ok h)

theorem tracks_modify {g g' : Context → Context} {post : Unit → Context → Unit → Context → Prop}
    (h : post () (g context) () (g' context')) :
    Tracks context context' (modify g : Action Unit) (modify g' : Action Unit) post :=
  .done (.ok h)

theorem tracks_checkpoint {post : Unit → Context → Unit → Context → Prop}
    (h : post () context () context') : Tracks context context' checkpoint checkpoint post :=
  .poll fun tripped => match tripped with
    | false => .done (.ok h)
    | true => .done (.error .cancelled _ _)

theorem tracks_announce {post : Unit → Context → Unit → Context → Prop}
    (h : post () context () context') : Tracks context context' announce announce post :=
  .formStart (.done (.ok h))

theorem tracks_breakpoint {place place' : Coordinate} {now now' : Moment} {value value' : Value}
    {post : Value → Context → Value → Context → Prop} (h : post value context value' context') :
    Tracks context context' (breakpoint place now value) (breakpoint place' now' value') post :=
  .hit (.done (.ok h))

/-- A breakpoint that only the first action comes to. -/
theorem tracks_extra {place : Coordinate} {now : Moment} {value : Value} {b : β}
    {post : Value → Context → β → Context → Prop} (h : post value context b context') :
    Tracks context context' (breakpoint place now value) (pure b) post :=
  .extra (.done (.ok h))

theorem Tracks.thenRestore {restore restore' : Context → Context}
    (h : Tracks context context' body body' fun a c b c' => post a (restore c) b (restore' c')) :
    Tracks context context' (body.thenRestore restore) (body'.thenRestore restore') post := by
  unfold Tracks
  rw [run_thenRestore, run_thenRestore]
  refine Run.Tracks.bind h ?_ ?_
  · rintro ⟨result, c⟩ rfl
    exact ⟨_, rfl, rfl⟩
  · rintro _ _ (holds | e)
    · exact .done (.ok holds)
    · exact .done (.error e _ _)

/-- Only the first action is nested more deeply. -/
theorem Tracks.deeper
    (h : Tracks { context with depth := context.depth + 1 } context' body body' fun a c b c' =>
      post a { c with depth := c.depth - 1 } b c') :
    Tracks context context' body.nested body' post := by
  have restored : body'.run.run context' =
      ((body'.thenRestore id).run.run context' : Run (Except Error β × Context)) := by
    rw [run_thenRestore]
    exact (Run.bind_done _).symm
  have tracked : Tracks { context with depth := context.depth + 1 } context'
      (body.thenRestore fun c => { c with depth := c.depth - 1 }) (body'.thenRestore id) post :=
    Tracks.thenRestore h
  unfold Tracks at tracked
  rw [← restored] at tracked
  exact tracked

theorem compositional₂_tracks : Compositional₂ (· = ·) Tracks where
  pure := tracks_pure
  throw := by
    rintro _ _ _ _ e _ _ rfl
    exact tracks_throw e
  mono := Tracks.mono
  bind := Tracks.bind
  get := tracks_get
  modify := tracks_modify
  checkpoint := tracks_checkpoint
  thenRestore := Tracks.thenRestore

end Action

end Stepper.Eval
