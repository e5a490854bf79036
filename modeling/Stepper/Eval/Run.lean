/-
  Runs: evaluations as trees of questions.

  An evaluation asks its surroundings three things: whether it has been
  cancelled (`poll`), to take note that a top-level form begins
  (`formStart`), and what to go on with at a breakpoint (`hit`).  A `Run` is
  the tree of its questions, with the result at the leaves, so that a run can
  be halted at a question and resumed when there is an answer.

  * `Run` is a monad (`instLawfulMonad`): what follows a run continues it at
    its leaves;
  * `Run.under h` answers all questions by a handler `h` and gives the result;
  * `Run.untouched` answers without anyone watching: values pass through
    breakpoints.
-/
import Stepper.Eval.Error
import Stepper.Eval.Snapshot

namespace Stepper.Eval

/-- What is known about a breakpoint that has been reached. -/
structure Site where
  place : Coordinate
  moment : Moment
  snapshot : Snapshot

/-- The result of an evaluation. -/
abbrev Result := Except Error Value

/-- The questions of an evaluation that ends with an `α`. -/
inductive Run (α : Type) where
  | done (result : α)
  | poll (next : Bool → Run α)
  | formStart (next : Run α)
  | hit (site : Site) (value : Value) (next : Result → Run α)

namespace Run

variable {α β γ : Type}

instance [Inhabited α] : Inhabited (Run α) := ⟨.done default⟩

/-- Goes on with `f` where `r` ends. -/
protected def bind (r : Run α) (f : α → Run β) : Run β :=
  match r with
  | done a => f a
  | poll next => poll fun tripped => (next tripped).bind f
  | formStart next => formStart (next.bind f)
  | hit site value next => hit site value fun answer => (next answer).bind f

instance : Monad Run where
  pure := done
  bind := Run.bind

theorem bind_done (r : Run α) : r.bind done = r := by
  induction r with
  | done a => rfl
  | poll next ih => simp [Run.bind, ih]
  | formStart next ih => simp [Run.bind, ih]
  | hit site value next ih => simp [Run.bind, ih]

theorem bind_assoc (r : Run α) (f : α → Run β) (g : β → Run γ) :
    (r.bind f).bind g = r.bind fun a => (f a).bind g := by
  induction r with
  | done a => rfl
  | poll next ih => simp [Run.bind, ih]
  | formStart next ih => simp [Run.bind, ih]
  | hit site value next ih => simp [Run.bind, ih]

instance instLawfulMonad : LawfulMonad Run :=
  LawfulMonad.mk' _ bind_done (fun _ _ => rfl) bind_assoc

/-! ## Answering the questions -/

/-- Someone who answers: each answer may depend on a state and change it. -/
structure Handler (σ : Type) where
  tripped : σ → Bool × σ
  formStart : σ → σ
  breakpoint : Site → Value → σ → Result × σ

/-- The result of a run whose questions `h` answers. -/
def under {σ : Type} (h : Handler σ) : Run α → σ → α × σ
  | done a, s => (a, s)
  | poll next, s =>
    let (tripped, s) := h.tripped s
    (next tripped).under h s
  | formStart next, s => next.under h (h.formStart s)
  | hit site value next, s =>
    let (answer, s) := h.breakpoint site value s
    (next answer).under h s

/-- The result of a run when values pass through breakpoints and the
    evaluation has been cancelled from the start or never is. -/
def untouched (tripped : Bool) : Run α → α
  | done a => a
  | poll next => (next tripped).untouched tripped
  | formStart next => next.untouched tripped
  | hit _ value next => (next (.ok value)).untouched tripped

end Run

end Stepper.Eval
