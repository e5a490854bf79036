/-
  Positions that are there.

  `Careful.forms` evaluates a program with every part of a form taken by its
  position, and tells when nothing stands there.  It is the evaluator
  (`Careful.forms_eq`), so evaluation never slips, and neither does the reader
  come upon what it guards against.  Main result: `never_slips`.
-/
import Stepper.Proofs.Eval.Operands
import Stepper.Proofs.Syntax.Refusals

namespace Stepper.Eval

open Stepper.Syntax (Form Guarded guarded_source)

namespace Careful

/-! ## Parts of forms

Each takes the careful evaluator `ev` for the forms inside. -/

/-- How the forms inside a form are evaluated. -/
abbrev Evaluator := Form → Coordinate → Moment → Careful Action Value

/-- The values of the items from `position` on. -/
def values (ev : Evaluator) (place : Coordinate) (now : Moment) :
    (position : Nat) → List Form → Careful Action (List Value)
  | _, [] => return []
  | position, item :: items => do
    let value ← ev item (place.child position) (.item position :: now)
    let others ← values ev place now (position + 1) items
    return value :: others

/-- The value of the last of the items from `position` on; before them it was
    `last`. -/
def body (ev : Evaluator) (place : Coordinate) (now : Moment) (last : Value) :
    (position : Nat) → List Form → Careful Action Value
  | _, [] => return last
  | position, item :: items => do
    let value ← ev item (place.child position) (.item position :: now)
    body ev place now value (position + 1) items

/-- `(if test then else)`. -/
def branch (ev : Evaluator) (place : Coordinate) (now : Moment) (items : List Form) :
    Careful Action Value :=
  if items.length < 3 ∨ 4 < items.length then certain (throw (.malformed .ifCount))
  else do
    let value ← ev (← item items 1) (place.child 1) (.item 1 :: now)
    if value.truthy then ev (← item items 2) (place.child 2) (.item 2 :: now)
    else
      match items[3]? with
      | some no => ev no (place.child 3) (.item 3 :: now)
      | none => return .nil

/-- Makes the bindings of the pairs from `index` on. -/
def bindings (ev : Evaluator) (place : Coordinate) (now : Moment) :
    (index : Nat) → List (List Form) → Careful Action Unit
  | _, [] => return ()
  | index, pair :: pairs => do
    let name ← item pair 0
    match name.symbol? with
    | none => certain (throw (.malformed .letName))
    | some name =>
      let form ← item pair 1
      let value ← ev form (place.child (index * 2 + 1)) (.binding (index * 2 + 1) :: now)
      certain (Action.addBinding name value)
      bindings ev place now (index + 1) pairs

/-- `(let [name form ...] body ...)`. -/
def binding (ev : Evaluator) (place : Coordinate) (now : Moment) (items : List Form) :
    Careful Action Value :=
  match items[1]?.bind Form.vector? with
  | none => certain (throw (.malformed .letVector))
  | some pairs =>
    if pairs.length % 2 ≠ 0 then certain (throw (.malformed .letPairs))
    else ExceptT.mk (Action.inScope (ExceptT.run do
      bindings ev (place.child 1) now 0 (chunks pairs)
      body ev place now .nil 2 (items.drop 2)))

/-- `(fn [name ...] body ...)`. -/
def function (place : Coordinate) (now : Moment) (items : List Form) : Careful Action Value :=
  match items[1]?.bind Form.vector? with
  | none => certain (throw (.malformed .fnVector))
  | some params => do
    let names ← certain (Action.ofExcept (parameterNames params))
    let forms ← itemsFrom items 2
    let context ← certain get
    return .closure now names forms context.locals place

/-- The body of a function at `place`, called at `now`. -/
def callee (ev : Evaluator) (place : Coordinate) (now : Moment) (last : Value) :
    (position : Nat) → List Form → Careful Action Value
  | _, [] => return last
  | position, form :: forms => do
    let value ← ev form (place.child (position + 2)) (.body position :: now)
    callee ev place now value (position + 1) forms

/-- Calls a value. -/
def apply (ev : Evaluator) (head : Form) (now : Moment) (function : Value) (args : List Value) :
    Careful Action Value :=
  match function with
  | .builtin f => ExceptT.mk (Action.ofExcept (call f args).run)
  | .closure _ params body captured place =>
    if args.length ≠ params.length then
      certain (throw (.arity "fn" (.exactly params.length) args.length))
    else
      ExceptT.mk (Action.withLocals (captured ++ params.zip args)
        (callee ev place now .nil 0 body).run)
  | other => certain (throw (.notCallable (calleeText head other)))

/-- A list: a special form or a call. -/
def list (ev : Evaluator) (place : Coordinate) (now : Moment) (items : List Form) :
    Careful Action Value :=
  match items.head? with
  | none => return .list []
  | some head =>
    match head.symbol?.bind Special.named? with
    | some .quote => certain (evalQuote items.tail)
    | some .body => body ev place now .nil 1 (items.drop 1)
    | some .branch => branch ev place now items
    | some .binding => binding ev place now items
    | some .function => function place now items
    | none => do
      let callee ← ev head (place.child 0) (.item 0 :: now)
      let args ← values ev place now 1 (items.drop 1)
      apply ev head now callee args

/-- A form, given how those inside it are evaluated. -/
def inner (ev : Evaluator) (form : Form) (place : Coordinate) (now : Moment) :
    Careful Action Value :=
  match form with
  | .vector items => do
    certain Action.checkpoint
    return .vector (← values ev place now 0 items)
  | .list items => do
    certain Action.checkpoint
    list ev place now items
  | .tagged form => do
    let value ← ev form place now
    certain (Action.breakpoint place now value)
  | .symbol name => certain (evalSymbol name)
  | .nil => return .nil
  | .bool b => return .bool b
  | .int n => return .int n
  | .float x => return .float x
  | .str s => return .str s

/-! ## Evaluation -/

/-- A form with `room` levels of nesting left. -/
def form : (room : Nat) → Evaluator
  | 0, _, _, _ => certain (throw (.depthExceeded maxDepth))
  | room + 1, outer, place, now =>
    ExceptT.mk (Action.nested (inner (fun f place now => form room f place now) outer place now).run)

/-- The forms of a program from `position` on. -/
def formsFrom (now : Moment) (last : Value) :
    (position : Nat) → List Form → Careful Action Value
  | _, [] => return last
  | position, outer :: forms => do
    certain Action.announce
    let context ← certain get
    let value ← form (maxDepth - context.depth) outer .root (.form position :: now)
    formsFrom now value (position + 1) forms

/-- The forms of a program. -/
def forms (now : Moment) (forms : List Form) : Careful Action Value := formsFrom now .nil 0 forms

/-! ## No slips -/

section

variable {α β : Type}

theorem map_thenRestore (f : α → β) (body : Action α) (restore : Context → Context) :
    (f <$> body).thenRestore restore = f <$> body.thenRestore restore := by
  refine ExceptT.ext ?_
  simp only [Action.thenRestore, ExceptT.run_map, ExceptT.run_mk, bind_map_left, map_bind, map_pure]

theorem nested_certain (body : Action α) :
    ExceptT.mk (Action.nested (certain body).run) = certain body.nested := by
  refine ExceptT.ext ?_
  simp only [certain, ExceptT.run_mk, ExceptT.run_lift, Action.nested, map_thenRestore, map_bind]

theorem withLocals_certain (locals : List Binding) (body : Action α) :
    ExceptT.mk (Action.withLocals locals (certain body).run) = certain (body.withLocals locals) := by
  refine ExceptT.ext ?_
  simp only [certain, ExceptT.run_mk, ExceptT.run_lift, Action.withLocals, map_thenRestore, map_bind]

theorem inScope_certain (body : Action α) :
    ExceptT.mk (Action.inScope (certain body).run) = certain body.inScope := by
  refine ExceptT.ext ?_
  simp only [certain, ExceptT.run_mk, ExceptT.run_lift, Action.inScope, map_thenRestore, map_bind]

end

variable (ev : Inner) (place : Coordinate) (now : Moment)

/-- The evaluator, which does not slip. -/
def sure : Evaluator := fun form place now => certain (ev form place now)

theorem values_eq (position : Nat) (items : List Form) :
    values (sure ev) place now position items = certain (evalItems ev place now position items) := by
  induction items generalizing position with
  | nil => exact (certain_pure []).symm
  | cons item items ih =>
    simp only [values, evalItems, sure, certain_bind, certain_pure, ← ih]

theorem body_eq (last : Value) (position : Nat) (items : List Form) :
    body (sure ev) place now last position items =
      certain (evalBody ev place now last position items) := by
  induction items generalizing position last with
  | nil => exact (certain_pure last).symm
  | cons item items ih => simp only [body, evalBody, sure, certain_bind, ← ih]

theorem callee_eq (last : Value) (position : Nat) (forms : List Form) :
    callee (sure ev) place now last position forms =
      certain (evalCallee ev place now last position forms) := by
  induction forms generalizing position last with
  | nil => exact (certain_pure last).symm
  | cons form forms ih => simp only [callee, evalCallee, sure, certain_bind, ← ih]

theorem branch_eq (head : Form) (operands : List Form) :
    branch (sure ev) place now (head :: operands) = certain (evalIf ev place now operands) := by
  match operands with
  | [] | [_] => rfl
  | [test, yes] =>
    have parts : branch (sure ev) place now [head, test, yes] = (do
        let value ← sure ev test (place.child 1) (.item 1 :: now)
        if value.truthy then sure ev yes (place.child 2) (.item 2 :: now) else return .nil) := rfl
    rw [parts, evalIf, certain_bind]
    congr 1
    funext value
    split
    · rfl
    · exact (certain_pure _).symm
  | [test, yes, no] =>
    have parts : branch (sure ev) place now [head, test, yes, no] = (do
        let value ← sure ev test (place.child 1) (.item 1 :: now)
        if value.truthy then sure ev yes (place.child 2) (.item 2 :: now)
        else sure ev no (place.child 3) (.item 3 :: now)) := rfl
    rw [parts, evalIf, certain_bind]
    congr 1
    funext value
    split <;> rfl
  | _ :: _ :: _ :: _ :: _ =>
    rw [branch, if_pos (.inr (by simp only [List.length_cons]; omega))]
    rfl

/-- The pairs of an even number of forms are pairs. -/
theorem bindings_eq (index : Nat) (pairs : List Form) (even : pairs.length % 2 = 0) :
    bindings (sure ev) place now index (chunks pairs) =
      certain (evalBindings ev place now (index * 2) pairs) := by
  fun_induction chunks pairs generalizing index with
  | case1 => exact (certain_pure ()).symm
  | case2 => cases even
  | case3 name form pairs ih =>
    have rest := ih (index + 1) (by rw [List.length_cons, List.length_cons] at even; omega)
    rw [Nat.succ_mul] at rest
    have parts : bindings (sure ev) place now index ([name, form] :: chunks pairs) =
        (match name.symbol? with
        | none => certain (throw (.malformed .letName))
        | some name => do
          let value ← sure ev form (place.child (index * 2 + 1)) (.binding (index * 2 + 1) :: now)
          certain (Action.addBinding name value)
          bindings (sure ev) place now (index + 1) (chunks pairs)) := rfl
    rw [parts, rest, evalBindings]
    cases name.symbol? with
    | none => rfl
    | some name => simp only [sure, certain_bind]

theorem binding_eq (head : Form) (operands : List Form) :
    binding (sure ev) place now (head :: operands) = certain (evalLet ev place now operands) := by
  have second : (head :: operands)[1]? = operands.head? := by cases operands <;> rfl
  rw [binding, evalLet, second]
  cases operands.head?.bind Form.vector? with
  | none => rfl
  | some pairs =>
    simp only
    split
    · rfl
    · rename_i even
      have even : pairs.length % 2 = 0 := by omega
      rw [bindings_eq ev _ _ 0 _ even, body_eq, List.drop_succ_cons, List.drop_one, ← certain_bind,
        inScope_certain, Nat.zero_mul]

theorem function_eq (head : Form) (operands : List Form) :
    function place now (head :: operands) = certain (evalFn place now operands) := by
  have second : (head :: operands)[1]? = operands.head? := by cases operands <;> rfl
  rw [function, evalFn, second]
  cases operands with
  | nil => rfl
  | cons first forms =>
    have forms : itemsFrom (head :: first :: forms) 2 = (pure forms : Careful Action _) :=
      if_pos (by simp only [List.length_cons]; omega)
    rw [forms, List.head?_cons, Option.bind_some]
    cases first.vector? with
    | none => rfl
    | some params =>
      simp only [certain_bind, certain_pure, pure_bind, List.tail_cons]

theorem apply_eq (head : Form) (function : Value) (args : List Value) :
    apply (sure ev) head now function args = certain (Eval.apply ev head now function args) := by
  cases function with
  | builtin f =>
    rw [apply, call_eq, Eval.apply]
    cases f.call args <;> rfl
  | closure id params forms captured place =>
    rw [apply, Eval.apply]
    split
    · rfl
    · rw [callee_eq, withLocals_certain]
  | _ => rfl

theorem list_eq (items : List Form) :
    list (sure ev) place now items = certain (evalList ev place now items) := by
  cases items with
  | nil => exact (certain_pure _).symm
  | cons head operands =>
    rw [list, List.head?_cons, evalList]
    simp only
    cases head.symbol?.bind Special.named? with
    | none =>
      simp only [certain_bind, sure, ← apply_eq, ← values_eq]
      rfl
    | some special =>
      cases special with
      | quote => rfl
      | body => exact body_eq ev place now .nil 1 operands
      | branch => exact branch_eq ev place now head operands
      | binding => exact binding_eq ev place now head operands
      | function => exact function_eq place now head operands

theorem inner_eq (form : Form) :
    inner (sure ev) form place now = certain (evalInner ev form place now) := by
  cases form with
  | vector items =>
    rw [inner, evalInner, values_eq]
    simp only [certain_bind, certain_pure]
  | list items =>
    rw [inner, evalInner, list_eq]
    simp only [certain_bind]
  | tagged form =>
    rw [inner, evalInner]
    simp only [certain_bind, sure]
  | symbol name => rfl
  | _ => exact (certain_pure _).symm

theorem form_eq (room : Nat) : form room = sure (evalForm room) := by
  -- On the room and not on the form: a call goes on with the body of a closure.
  induction room with
  | zero => rfl
  | succ room ih =>
    funext outer place now
    rw [form, ih, sure, evalForm]
    exact (congrArg _ (inner_eq _ _ _ _)).trans (nested_certain _)

theorem formsFrom_eq (last : Value) (position : Nat) (forms : List Form) :
    formsFrom now last position forms = certain (evalFormsFrom now last position forms) := by
  induction forms generalizing position last with
  | nil => exact (certain_pure last).symm
  | cons outer forms ih =>
    simp only [formsFrom, evalFormsFrom, eval, form_eq, sure, certain_bind, bind_assoc, ← ih]

/-- The careful evaluator is the evaluator. -/
theorem forms_eq (program : List Form) : forms now program = certain (evalForms now program) :=
  formsFrom_eq now .nil 0 program

theorem start_certain {α : Type} (action : Action α) (locals : List Binding) :
    Action.start (certain action).run locals =
      (action.start locals).bind fun r => .done (r.1.map .ok, r.2) := by
  have step : (certain action).run = action >>= fun a => pure (Except.ok a : Except Slip α) := rfl
  rw [Action.start, step, Action.run_bind]
  congr 1
  funext ⟨result, context⟩
  cases result <;> rfl

end Careful

theorem Run.under_bind {α β σ : Type} (h : Run.Handler σ) (r : Run α) (f : α → Run β) (state : σ) :
    (r.bind f).under h state = (f (r.under h state).1).under h (r.under h state).2 := by
  induction r generalizing state with
  | done => rfl
  | poll next ih => exact ih _ _
  | formStart next ih => exact ih _
  | hit site value next ih => exact ih _ _

/-- Whatever the source, the reader meets none of the faults it guards against;
    whether its offsets fit into 32 bits is only a question of the size of the
    source.  And whatever the program and its surroundings, its evaluation finds
    every part that it counts on. -/
theorem never_slips :
    (∀ source, Guarded source) ∧
    ∀ (program : List Form) (now : Moment) (locals : List Binding) {σ : Type}
      (h : Run.Handler σ) (state : σ),
      (∀ slip, ((Action.start (Careful.forms now program).run locals).under h state).1.1 ≠
        .ok (.error slip)) ∧
      ∃ result context after,
        ((evalForms now program).start locals).under h state = ((result, context), after) ∧
        (Action.start (Careful.forms now program).run locals).under h state =
          ((result.map .ok, context), after) := by
  refine ⟨guarded_source, ?_⟩
  intro program now locals σ h state
  obtain ⟨result, context, after, under⟩ : ∃ result context after,
      ((evalForms now program).start locals).under h state = ((result, context), after) :=
    ⟨_, _, _, rfl⟩
  have careful : (Action.start (Careful.forms now program).run locals).under h state =
      ((result.map .ok, context), after) := by
    rw [Careful.forms_eq, Careful.start_certain, Run.under_bind, under]
    rfl
  refine ⟨?_, result, context, after, under, careful⟩
  rw [careful]
  cases result <;> nofun

end Stepper.Eval
