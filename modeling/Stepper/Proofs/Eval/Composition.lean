/-
  What holds of the evaluator because it holds of its parts.

  A property of actions is `Compositional` when it holds of the primitive
  actions and is kept by sequencing and by the restoring of a context.  Then
  it holds of the evaluation of every form (`Compositional.eval`) and of every
  source (`Compositional.evalSource`): of the errors that the evaluator raises
  by itself, none is `cancelled`.
-/
import Stepper.Eval.Evaluator
import Stepper.Proofs.Eval.Builtin

namespace Stepper.Eval

variable {α β : Type}

namespace Action

theorem run_bind (body : Action α) (f : α → Action β) (context : Context) :
    (body >>= f).run.run context = (body.run.run context).bind fun
      | (.ok a, context) => (f a).run.run context
      | (.error e, context) => .done (.error e, context) := by
  rw [ExceptT.run_bind, StateT.run_bind]
  change Run.bind _ _ = Run.bind _ _
  congr 1
  funext ⟨result, context⟩
  cases result <;> rfl

theorem run_thenRestore (body : Action α) (restore : Context → Context) (context : Context) :
    (body.thenRestore restore).run.run context =
      (body.run.run context).bind fun r => .done (r.1, restore r.2) := rfl

/-- A property of actions that comes from their parts. -/
structure Compositional (P : ∀ {α : Type}, Action α → Prop) : Prop where
  pure : ∀ {α : Type} (a : α), P (pure a : Action α)
  throw : ∀ {α : Type} {e : Error}, e ≠ .cancelled → P (throw e : Action α)
  bind : ∀ {α β : Type} {body : Action α} {f : α → Action β}, P body → (∀ a, P (f a)) →
    P (body >>= f)
  get : P (get : Action Context)
  modify : ∀ f : Context → Context, P (modify f : Action Unit)
  checkpoint : P checkpoint
  announce : P announce
  breakpoint : ∀ place now value, P (breakpoint place now value)
  thenRestore : ∀ {α : Type} {body : Action α} {restore : Context → Context}, P body →
    P (body.thenRestore restore)

end Action

/-! ## Forms -/

open Stepper.Syntax (Form readForms)

theorem malformed_of_parameterNames {params : List Form} {e : Error}
    (failed : parameterNames params = .error e) : e = .malformed .fnName := by
  obtain ⟨param, -, failed⟩ := exists_of_mapM_error failed
  cases known : param.symbol? with
  | none =>
    rw [known] at failed
    exact (Except.error.inj failed).symm
  | some name =>
    rw [known] at failed
    cases failed

namespace Action.Compositional

variable {P : ∀ {α : Type}, Action α → Prop} (h : Compositional P)
include h

theorem nested {body : Action α} (holds : P body) : P body.nested :=
  h.bind (h.modify _) fun _ => h.thenRestore holds

theorem withLocals {body : Action α} (holds : P body) (locals : List Binding) :
    P (body.withLocals locals) :=
  h.bind h.get fun _ => h.bind (h.modify _) fun _ => h.thenRestore holds

theorem inScope {body : Action α} (holds : P body) : P body.inScope :=
  h.bind h.get fun _ => h.thenRestore holds

theorem addBinding (name : String) (value : Value) : P (addBinding name value) := h.modify _

theorem ofExcept {r : Except Error α} (fine : r ≠ .error .cancelled) : P (ofExcept r) := by
  cases r with
  | ok a => exact h.pure a
  | error e => exact h.throw fun same => fine (same ▸ rfl)

theorem evalSymbol (name : String) : P (evalSymbol name) := by
  refine h.bind h.get fun context => ?_
  split
  · exact h.pure _
  · split
    · exact h.pure _
    · exact h.throw fun same => by cases same

theorem evalQuote (operands : List Form) : P (evalQuote operands) := by
  unfold Eval.evalQuote
  split
  · exact h.pure _
  · exact h.throw fun same => by cases same

theorem evalFn (place : Coordinate) (now : Moment) (operands : List Form) :
    P (evalFn place now operands) := by
  unfold Eval.evalFn
  split
  · exact h.throw fun same => by cases same
  · refine h.bind (h.ofExcept fun failed => ?_) fun _ => h.bind h.get fun _ => h.pure _
    cases malformed_of_parameterNames failed

section

variable {ev : Inner} (inner : ∀ form place now, P (ev form place now))
include inner

theorem evalItems (place : Coordinate) (now : Moment) (items : List Form) :
    ∀ position, P (evalItems ev place now position items) := by
  induction items with
  | nil => exact fun _ => h.pure _
  | cons item items ih =>
    exact fun _ => h.bind (inner _ _ _) fun _ => h.bind (ih _) fun _ => h.pure _

theorem evalBody (place : Coordinate) (now : Moment) (items : List Form) :
    ∀ last position, P (evalBody ev place now last position items) := by
  induction items with
  | nil => exact fun _ _ => h.pure _
  | cons item items ih => exact fun _ _ => h.bind (inner _ _ _) fun _ => ih _ _

theorem evalCallee (place : Coordinate) (now : Moment) (body : List Form) :
    ∀ last position, P (evalCallee ev place now last position body) := by
  induction body with
  | nil => exact fun _ _ => h.pure _
  | cons form body ih => exact fun _ _ => h.bind (inner _ _ _) fun _ => ih _ _

theorem evalIf (place : Coordinate) (now : Moment) (operands : List Form) :
    P (evalIf ev place now operands) := by
  unfold Eval.evalIf
  split
  · refine h.bind (inner _ _ _) fun value => ?_
    split
    · exact inner _ _ _
    · exact h.pure _
  · refine h.bind (inner _ _ _) fun value => ?_
    split <;> exact inner _ _ _
  · exact h.throw fun same => by cases same

theorem evalBindings (place : Coordinate) (now : Moment) (position : Nat) (pairs : List Form) :
    P (evalBindings ev place now position pairs) := by
  fun_induction Eval.evalBindings ev place now position pairs with
  | case1 position name form rest none => exact h.throw fun same => by cases same
  | case2 position name form rest name' known ih =>
    exact h.bind (inner _ _ _) fun value => h.bind (h.addBinding _ _) fun _ => ih
  | case3 => exact h.pure _

theorem evalLet (place : Coordinate) (now : Moment) (operands : List Form) :
    P (evalLet ev place now operands) := by
  unfold Eval.evalLet
  split
  · exact h.throw fun same => by cases same
  · split
    · exact h.throw fun same => by cases same
    · exact h.inScope (h.bind (h.evalBindings inner _ _ _ _) fun _ => h.evalBody inner _ _ _ _ _)

theorem apply (head : Form) (now : Moment) (callee : Value) (args : List Value) :
    P (apply ev head now callee args) := by
  unfold Eval.apply
  split
  · exact h.ofExcept (Builtin.call_ne_cancelled _ _)
  · split
    · exact h.throw fun same => by cases same
    · exact h.withLocals (h.evalCallee inner _ _ _ _ _) _
  · exact h.throw fun same => by cases same

theorem evalList (place : Coordinate) (now : Moment) (items : List Form) :
    P (evalList ev place now items) := by
  unfold Eval.evalList
  split
  · exact h.pure _
  · split
    · exact h.evalQuote _
    · exact h.evalBody inner _ _ _ _ _
    · exact h.evalIf inner _ _ _
    · exact h.evalLet inner _ _ _
    · exact h.evalFn _ _ _
    · exact h.bind (inner _ _ _) fun _ => h.bind (h.evalItems inner _ _ _ _) fun _ =>
        h.apply inner _ _ _ _

theorem evalInner (form : Form) (place : Coordinate) (now : Moment) :
    P (evalInner ev form place now) := by
  cases form with
  | nil | bool | int | float | str => exact h.pure _
  | symbol name => exact h.evalSymbol name
  | vector items =>
    exact h.bind h.checkpoint fun _ => h.bind (h.evalItems inner _ _ _ _) fun _ => h.pure _
  | list items => exact h.bind h.checkpoint fun _ => h.evalList inner _ _ _
  | tagged form => exact h.bind (inner _ _ _) fun _ => h.breakpoint _ _ _

end

theorem evalForm (room : Nat) : ∀ form place now, P (evalForm room form place now) := by
  induction room with
  | zero => exact fun _ _ _ => h.throw fun same => by cases same
  | succ room ih => exact fun form place now => h.nested (h.evalInner ih form place now)

theorem eval (form : Form) (place : Coordinate) (now : Moment) : P (eval form place now) :=
  h.bind h.get fun _ => h.evalForm _ form place now

theorem evalForms (now : Moment) (forms : List Form) : P (evalForms now forms) := by
  suffices ∀ last position, P (evalFormsFrom now last position forms) from this .nil 0
  induction forms with
  | nil => exact fun _ _ => h.pure _
  | cons form forms ih =>
    exact fun _ _ => h.bind h.announce fun _ => h.bind (h.eval _ _ _) fun _ => ih _ _

theorem evalSource (now : Moment) (source : String) : P (evalSource now source) := by
  unfold Eval.evalSource
  split
  · exact h.throw fun same => by cases same
  · exact h.evalForms _ _

end Action.Compositional

end Stepper.Eval
