/-
  Evaluations that are answered by a rule.

  `Answers` settle beforehand whether an evaluation has been cancelled and with
  which value it goes on at each breakpoint, whatever else has happened.  Who
  answers so gives the result `Run.answered` (`under_eq_answered`).

  `Action.Follows` compares two such evaluations by what they end with.  It
  comes from their parts (`compositional₂_follows`), like `Action.Tracks`, but
  says nothing of what they ask.
-/
import Stepper.Proofs.Eval.Correspondence
import Stepper.Proofs.Eval.Finality

namespace Stepper.Eval

variable {α β γ δ σ : Type}

/-- Answers that depend on nothing but the question. -/
structure Answers where
  tripped : Bool
  /-- What to go on with at a breakpoint where a value is offered. -/
  value : Site → Value → Value

/-- Nobody watches: values pass through breakpoints. -/
def Answers.unwatched (tripped : Bool) : Answers := ⟨tripped, fun _ value => value⟩

/-- The handler gives these answers, whatever its state. -/
structure Run.Handler.Gives (handler : Handler σ) (answers : Answers) : Prop where
  tripped : ∀ s, (handler.tripped s).1 = answers.tripped
  value : ∀ site value s, (handler.breakpoint site value s).1 = .ok (answers.value site value)

namespace Run

/-- The result of a run with these answers. -/
def answered (answers : Answers) : Run α → α
  | done a => a
  | poll next => (next answers.tripped).answered answers
  | formStart next => next.answered answers
  | hit site value next => (next (.ok (answers.value site value))).answered answers

theorem under_eq_answered {handler : Handler σ} {answers : Answers} (gives : handler.Gives answers)
    (r : Run α) (s : σ) : (r.under handler s).1 = r.answered answers := by
  induction r generalizing s with
  | done a => rfl
  | poll next ih =>
    rw [under, answered, ← gives.tripped s]
    exact ih _ _
  | formStart next ih => exact ih _
  | hit site value next ih =>
    rw [under, answered, ← gives.value site value s]
    exact ih _ _

/-- A run that is not cancelled has the result that it has if nothing can be. -/
theorem Final.under_eq_answered {ends : Error → α → Prop} {r : Run α} (final : r.Final ends)
    {handler : Handler σ} {value : Site → Value → Value}
    (gives : ∀ site v s, (handler.breakpoint site v s).1 = .ok (value site v)) (s : σ) :
    ends .cancelled (r.under handler s).1 ∨ (r.under handler s).1 = r.answered ⟨false, value⟩ := by
  induction r generalizing s with
  | done a => exact .inr rfl
  | poll next ih =>
    simp only [under]
    cases (handler.tripped s).1 with
    | false => exact ih false final.2 _
    | true =>
      obtain ⟨a, ended, cancelled⟩ := final.1
      rw [ended]
      exact .inl cancelled
  | formStart next ih => exact ih final _
  | hit site v next ih =>
    simp only [under, answered]
    rw [gives]
    exact ih _ (final.2 _) _

theorem untouched_eq_answered (tripped : Bool) (r : Run α) :
    r.untouched tripped = r.answered (.unwatched tripped) := by
  induction r with
  | done a => rfl
  | poll next ih => exact ih tripped
  | formStart next ih => exact ih
  | hit site value next ih => exact ih (.ok value)

theorem answered_bind (answers : Answers) (r : Run α) (f : α → Run β) :
    (r.bind f).answered answers = (f (r.answered answers)).answered answers := by
  induction r with
  | done a => rfl
  | poll next ih => exact ih answers.tripped
  | formStart next ih => exact ih
  | hit site value next ih => exact ih (.ok (answers.value site value))

end Run

/-! ## Actions -/

/-- How two evaluations may end: both well, as `post` says; both with errors, as
    `E` says; or the first one with an error that is `excused`. -/
inductive EndAlike (excused : Error → Prop) (E : Error → Error → Prop)
    (post : α → Context → β → Context → Prop) :
    Except Error α × Context → Except Error β × Context → Prop
  | ok {a b c c'} (h : post a c b c') : EndAlike excused E post (.ok a, c) (.ok b, c')
  | error {e e'} (h : E e e') (c c' : Context) : EndAlike excused E post (.error e, c) (.error e', c')
  | excused {e} (h : excused e) (c : Context) (r' : Except Error β × Context) :
    EndAlike excused E post (.error e, c) r'

namespace Action

/-- What an action ends with in a context when it is answered so. -/
def answered (answers : Answers) (body : Action α) (context : Context) : Except Error α × Context :=
  (body.run.run context : Run (Except Error α × Context)).answered answers

variable {answers answers' : Answers} {excused : Error → Prop} {E : Error → Error → Prop}
  {context context' : Context} {body : Action α} {body' : Action β}
  {post : α → Context → β → Context → Prop}

theorem answered_bind (answers : Answers) (body : Action α) (f : α → Action γ)
    (context : Context) :
    (body >>= f).answered answers context =
      match body.answered answers context with
      | (.ok a, context) => (f a).answered answers context
      | (.error e, context) => (.error e, context) := by
  rw [answered, run_bind, Run.answered_bind]
  change Run.answered answers (match body.answered answers context with
    | (.ok a, context) => (f a).run.run context
    | (.error e, context) => .done (.error e, context)) = _
  obtain ⟨result, context⟩ := body.answered answers context
  cases result <;> rfl

theorem answered_thenRestore (answers : Answers) (body : Action α) (restore : Context → Context)
    (context : Context) :
    (body.thenRestore restore).answered answers context =
      ((body.answered answers context).1, restore (body.answered answers context).2) := by
  rw [answered, run_thenRestore, Run.answered_bind]
  rfl

/-- Each action in its own context, answered in its own way, ends like the
    other one. -/
def Follows (answers answers' : Answers) (excused : Error → Prop) (E : Error → Error → Prop)
    (context context' : Context) (body : Action α) (body' : Action β)
    (post : α → Context → β → Context → Prop) : Prop :=
  EndAlike excused E post (body.answered answers context) (body'.answered answers' context')

theorem follows_throw {e e' : Error} (h : E e e') :
    Follows answers answers' excused E context context' (throw e) (throw e') post :=
  .error h _ _

theorem follows_excused {e : Error} (h : excused e) :
    Follows answers answers' excused E context context' (throw e) body' post :=
  .excused h _ _

theorem Follows.mono {post' : α → Context → β → Context → Prop}
    (h : Follows answers answers' excused E context context' body body' post)
    (weaker : ∀ a c b c', post a c b c' → post' a c b c') :
    Follows answers answers' excused E context context' body body' post' := by
  unfold Follows at h ⊢
  generalize body.answered answers context = r at h ⊢
  generalize body'.answered answers' context' = r' at h ⊢
  cases h with
  | ok h => exact .ok (weaker _ _ _ _ h)
  | error h => exact .error h _ _
  | excused h => exact .excused h _ _

theorem Follows.bind {f : α → Action γ} {f' : β → Action δ}
    {post : γ → Context → δ → Context → Prop}
    (h : Follows answers answers' excused E context context' body body' fun a c b c' =>
      Follows answers answers' excused E c c' (f a) (f' b) post) :
    Follows answers answers' excused E context context' (body >>= f) (body' >>= f') post := by
  unfold Follows at h ⊢
  rw [answered_bind, answered_bind]
  generalize body.answered answers context = r at h ⊢
  generalize body'.answered answers' context' = r' at h ⊢
  cases h with
  | ok continues => exact continues
  | error h => exact .error h _ _
  | excused h => exact .excused h _ _

theorem Follows.thenRestore {restore restore' : Context → Context}
    (h : Follows answers answers' excused E context context' body body' fun a c b c' =>
      post a (restore c) b (restore' c')) :
    Follows answers answers' excused E context context' (body.thenRestore restore)
      (body'.thenRestore restore') post := by
  unfold Follows at h ⊢
  rw [answered_thenRestore, answered_thenRestore]
  generalize body.answered answers context = r at h ⊢
  generalize body'.answered answers' context' = r' at h ⊢
  cases h with
  | ok h => exact .ok h
  | error h => exact .error h _ _
  | excused h => exact .excused h _ _

/-- The actions themselves are compared when both are answered alike about
    having been cancelled. -/
theorem compositional₂_follows (tripped : answers.tripped = answers'.tripped)
    (cancelled : E .cancelled .cancelled) :
    Compositional₂ E (Follows answers answers' excused E) where
  pure h := .ok h
  throw h := follows_throw h
  mono := Follows.mono
  bind := Follows.bind
  get h := .ok h
  modify h := .ok h
  checkpoint {c c' post} h := by
    have stops : ∀ (answers : Answers) (c : Context), checkpoint.answered answers c =
        if answers.tripped then (.error .cancelled, c) else (.ok (), c) := by
      rintro ⟨tripped, value⟩ c
      cases tripped <;> rfl
    unfold Follows
    rw [stops, stops, tripped]
    split
    · exact .error cancelled _ _
    · exact .ok h
  thenRestore := Follows.thenRestore

theorem answered_breakpoint (answers : Answers) (place : Coordinate) (now : Moment) (value : Value)
    (context : Context) :
    (breakpoint place now value).answered answers context =
      (.ok (answers.value ⟨place, now, .capture context.locals⟩ value), context) := rfl

theorem answered_nested (answers : Answers) (body : Action α) (context : Context) :
    body.nested.answered answers context =
      ((body.answered answers { context with depth := context.depth + 1 }).1,
        { (body.answered answers { context with depth := context.depth + 1 }).2 with
          depth :=
            (body.answered answers { context with depth := context.depth + 1 }).2.depth - 1 }) := by
  rw [nested, answered_bind]
  exact answered_thenRestore ..

/-- When nobody watches, a breakpoint changes nothing. -/
theorem answered_bind_breakpoint (tripped : Bool) (body : Action Value) (place : Coordinate)
    (now : Moment) (context : Context) :
    (body >>= breakpoint place now).answered (.unwatched tripped) context =
      body.answered (.unwatched tripped) context := by
  rw [answered_bind]
  generalize body.answered (.unwatched tripped) context = r
  obtain ⟨result, context⟩ := r
  cases result <;> rfl

/-- Only the first action is nested more deeply. -/
theorem Follows.deeper
    (h : Follows answers answers' excused E { context with depth := context.depth + 1 } context'
      body body' fun a c b c' => post a { c with depth := c.depth - 1 } b c') :
    Follows answers answers' excused E context context' body.nested body' post := by
  unfold Follows at h ⊢
  rw [answered_nested]
  generalize body.answered answers { context with depth := context.depth + 1 } = r at h ⊢
  generalize body'.answered answers' context' = r' at h ⊢
  cases h with
  | ok h => exact .ok h
  | error h => exact .error h _ _
  | excused h => exact .excused h _ _

end Action

/-! ## Programs -/

section

open Stepper.Syntax (Form)
open Stepper.Eval.Action

variable {κ : Correspondence} {answers answers' : Answers} {excused : Error → Prop}
  {forms forms' : List Form} {context context' : Context} {now : Moment}

/-- Programs end alike if forms do that correspond, with as much room for the
    second one. -/
theorem follows_evalForms
    (carries : ∀ room, κ.Carries (Follows answers answers' excused κ.error) (evalForm room)
      (evalForm room))
    (each : List.Forall₂ (κ.form .root) forms forms')
    (scopes : κ.scope context.locals context'.locals) (depths : context.depth = context'.depth)
    (nil : κ.value .nil .nil) :
    Follows answers answers' excused κ.error context context' (evalForms now forms)
      (evalForms now forms') (κ.Returns context context') := by
  suffices ∀ {last last'} position, κ.value last last' →
      Follows answers answers' excused κ.error context context'
        (evalFormsFrom now last position forms) (evalFormsFrom now last' position forms')
        (κ.Returns context context') from this 0 nil
  induction each with
  | nil => exact fun _ related => .ok ⟨rfl, rfl, related⟩
  | @cons form form' _ _ first _ ih =>
    intro last last' position related
    have evaluated : Follows answers answers' excused κ.error context context'
        (eval form .root (.form position :: now)) (eval form' .root (.form position :: now))
        (κ.Returns context context') := by
      refine Follows.bind (.ok ?_)
      rw [← depths]
      exact carries _ .root _ first scopes
    have announced : Follows answers answers' excused κ.error context context' announce announce
        fun _ c _ c' => c = context ∧ c' = context' := .ok ⟨rfl, rfl⟩
    refine Follows.bind (announced.mono ?_)
    rintro - c - c' ⟨rfl, rfl⟩
    refine Follows.bind (evaluated.mono ?_)
    rintro value c value' c' ⟨rfl, rfl, related⟩
    exact ih (position + 1) related

/-- The results that programs end with: the first one is an error that is
    excused, or both are errors, or both are values. -/
theorem results_evalForms (now : Moment) {locals locals' : List Binding}
    (carries : ∀ room, κ.Carries (Follows answers answers' excused κ.error) (evalForm room)
      (evalForm room))
    (each : List.Forall₂ (κ.form .root) forms forms') (scopes : κ.scope locals locals')
    (nil : κ.value .nil .nil) :
    (∃ e, excused e ∧ (((evalForms now forms).start locals).answered answers).1 = .error e) ∨
      (∃ e e', κ.error e e' ∧
        (((evalForms now forms).start locals).answered answers).1 = .error e ∧
        (((evalForms now forms').start locals').answered answers').1 = .error e') ∨
      ∃ v v', κ.value v v' ∧
        (((evalForms now forms).start locals).answered answers).1 = .ok v ∧
        (((evalForms now forms').start locals').answered answers').1 = .ok v' := by
  have follows : EndAlike excused κ.error (κ.Returns ⟨locals, 0⟩ ⟨locals', 0⟩)
      (((evalForms now forms).start locals).answered answers)
      (((evalForms now forms').start locals').answered answers') :=
    follows_evalForms carries each scopes rfl nil
  generalize ((evalForms now forms).start locals).answered answers = r at follows ⊢
  generalize ((evalForms now forms').start locals').answered answers' = r' at follows ⊢
  cases follows with
  | excused h => exact .inl ⟨_, h, rfl⟩
  | error h => exact .inr (.inl ⟨_, _, h, rfl, rfl⟩)
  | ok h => exact .inr (.inr ⟨_, _, h.2.2, rfl, rfl⟩)

end

end Stepper.Eval
