/-
  The limits of the reader and of the evaluator.

  What the reader accepts is nested no deeper than evaluations may be, and a
  form has as much room as it is deep.  So a program that makes no functions,
  and is given none, never comes to the limit of the depth, nor does an
  expression in a snapshot; in general no program comes to it that does not
  evaluate the body of a function (`limits_agree`).
-/
import Stepper.Proofs.Eval.Curtailing
import Stepper.Proofs.Eval.Lexical
import Stepper.Proofs.Eval.Outcome
import Stepper.Proofs.Eval.Regime
import Stepper.Proofs.Syntax.Reading

namespace Stepper.Syntax.Form

theorem depth_untagged_le : ∀ form : Form, form.untagged.depth ≤ form.depth
  | tagged form => by
    have inner := form.depth_untagged_le
    rw [untagged, depth_tagged]
    omega
  | nil | bool _ | int _ | float _ | str _ | symbol _ | list _ | vector _ => Nat.le_refl _

/-- Items are less deep than the form, also seen through its tags. -/
theorem depth_lt_of_mem_items {form item : Form} (mem : item ∈ form.items) :
    item.depth < form.depth := by
  have outer := form.depth_untagged_le
  unfold items at mem
  split at mem
  · rename_i items whole
    have inner := depthAll_le_iff.1 (Nat.le_refl (depthAll items)) item mem
    rw [whole, depth_list] at outer
    omega
  · rename_i items whole
    have inner := depthAll_le_iff.1 (Nat.le_refl (depthAll items)) item mem
    rw [whole, depth_vector] at outer
    omega
  · simp at mem

mutual
/-- Whether no list in the form is headed by the symbol `fn`. -/
def functionFree : Form → Bool
  | list items => items.head?.bind symbol? != some "fn" && functionFreeAll items
  | vector items => functionFreeAll items
  | tagged form => form.functionFree
  | _ => true

/-- Whether no list in the forms is headed by the symbol `fn`. -/
def functionFreeAll : List Form → Bool
  | [] => true
  | form :: forms => form.functionFree && functionFreeAll forms
end

theorem functionFreeAll_iff {forms : List Form} :
    functionFreeAll forms ↔ ∀ form ∈ forms, form.functionFree := by
  induction forms with
  | nil => simp [functionFreeAll]
  | cons form forms ih => simp [functionFreeAll, ih]

theorem functionFree_untagged : ∀ form : Form, form.untagged.functionFree = form.functionFree
  | tagged form => by rw [untagged, functionFree, form.functionFree_untagged]
  | nil | bool _ | int _ | float _ | str _ | symbol _ | list _ | vector _ => rfl

theorem functionFree_of_mem_items {form item : Form} (free : form.functionFree)
    (mem : item ∈ form.items) : item.functionFree := by
  rw [← functionFree_untagged] at free
  unfold items at mem
  split at mem
  · rename_i items whole
    simp only [whole, functionFree, Bool.and_eq_true] at free
    exact functionFreeAll_iff.1 free.2 item mem
  · rename_i items whole
    rw [whole, functionFree] at free
    exact functionFreeAll_iff.1 free item mem
  · simp at mem

end Stepper.Syntax.Form

namespace Stepper.Eval

open Stepper.Syntax (Form readForms readForm exists_parse readForms_of_readForm)

variable {σ : Type}

theorem eq_fn_of_special {head : Form}
    (special : head.symbol?.bind Special.named? = some .function) :
    head.symbol? = some "fn" := by
  obtain ⟨name, known, special⟩ := Option.bind_eq_some_iff.1 special
  unfold Special.named? at special
  split at special <;> simp_all

/-- Forms that the reader accepts have the room that they need at the start. -/
theorem depth_le_of_readForms {source : String} {forms : List Form}
    (read : readForms source = .ok forms) {form : Form} (mem : form ∈ forms) :
    form.depth ≤ maxDepth := by
  obtain ⟨trees, parse⟩ := exists_parse read
  exact parse.shallow form mem

/-! ## Without functions -/

/-- The handler answers with values without functions that programs have made,
    or fails with another error than that of the limit, as long as there are no
    such functions in what it is told of. -/
def Run.Handler.AddsNoFunctions (handler : Run.Handler σ) : Prop :=
  ∀ site value s, value.ClosureFree →
    (∀ binding ∈ site.snapshot.bindings, binding.2.ClosureFree) →
    match (handler.breakpoint site value s).1 with
    | .ok answer => answer.ClosureFree
    | .error e => ∀ limit, e ≠ .depthExceeded limit

namespace Regime

/-- A form as `P` says, with room for it. -/
def Fitting (P : Form → Prop) (room : Nat) (form : Form) : Prop := P form ∧ form.depth ≤ room

theorem not_fitting_zero {P : Form → Prop} {form : Form} : ¬ Fitting P 0 form := by
  rintro ⟨-, shallow⟩
  have positive := form.depth_pos
  omega

/-- The parts of a form need less room. -/
theorem layer_of_fitting {ρ : Regime} {P : Form → Prop} {room : Nat} {form : Form}
    (fits : Fitting P (room + 1) form) (items : ∀ g, P g → ∀ item ∈ g.items, P item)
    (tagged : ∀ g, P (.tagged g) → P g) (quoted : ∀ g n, P g → ρ.value n (.ofForm g))
    (function : ∀ head operands, P (.list (head :: operands)) →
      head.symbol?.bind Special.named? = some .function → ρ.body operands.tail) :
    ρ.Layer (Fitting P room) form := by
  obtain ⟨holds, shallow⟩ := fits
  apply layer_of_items
  case inside =>
    intro item mem
    have inner := Form.depth_lt_of_mem_items mem
    exact ⟨items form holds item mem, by omega⟩
  case under =>
    rintro inner rfl
    rw [Form.depth_tagged] at shallow
    exact ⟨tagged inner holds, by omega⟩
  case deeper =>
    rintro g ⟨holds, shallow⟩ item mem
    have inner := Form.depth_lt_of_mem_items mem
    exact ⟨items g holds item mem, by omega⟩
  case quoted => exact fun g n fits => quoted g n fits.1
  case function =>
    rintro head operands rfl
    exact function head operands holds

/-- There are no functions that programs have made, and the limit of the depth
    is not reached. -/
def closureFree : Regime where
  value _ v := v.ClosureFree
  body _ := False
  fails e := ∀ limit, e ≠ .depthExceeded limit
  fair site value answer := value.ClosureFree →
    (∀ binding ∈ site.snapshot.bindings, binding.2.ClosureFree) →
    match answer with
    | .ok answer => answer.ClosureFree
    | .error e => ∀ limit, e ≠ .depthExceeded limit

theorem lawful_closureFree : closureFree.Lawful where
  grow _ h := h
  nil _ := .nil
  bool _ := .bool
  int _ := .int
  float _ := .float
  str _ := .str
  builtin _ := .builtin
  list := .list
  vector := .vector
  function own := own.elim
  callee := by
    intro n id params body captured place h
    cases h with
    | closure own => exact own.elim
  error _ h := h
  goes fair h scope := fair h scope
  stops fair h scope := fair h scope

theorem layer_closureFree {room : Nat} {form : Form}
    (fits : Fitting (fun form => form.functionFree) (room + 1) form) :
    closureFree.Layer (Fitting (fun form => form.functionFree) room) form := by
  refine layer_of_fitting fits (fun g free item mem => Form.functionFree_of_mem_items free mem) ?_
    (fun g n _ => Value.built_ofForm g) ?_
  · intro g free
    rwa [Form.functionFree] at free
  · intro head operands free special
    simp [Form.functionFree, eq_fn_of_special special] at free

theorem keeps_closureFree (room : Nat) :
    closureFree.Keeps (Fitting (fun form => form.functionFree) room) (evalForm room) := by
  induction room with
  | zero => exact fun _ _ fits => absurd fits not_fitting_zero
  | succ room ih =>
    intro form context base place now fits scope
    have enters : closureFree.Enters (evalForm room) := fun _ _ own => own.elim
    exact lawful_closureFree.evalNested ih enters (layer_closureFree fits) scope

theorem evaluates_closureFree {form : Form} {base : Nat} {context : Context} (place : Coordinate)
    (now : Moment) (free : form.functionFree) (shallow : form.depth + context.depth ≤ maxDepth)
    (scope : closureFree.Scope base context.locals) :
    closureFree.Evaluates context base (eval form place now) :=
  Action.ensures_get_bind (keeps_closureFree _ place now ⟨free, by omega⟩ scope)

/-- What is evaluated in the regime does not come to the limit. -/
theorem Evaluates.ne_depthExceeded {context : Context} {base : Nat} {body : Action Value}
    (h : closureFree.Evaluates context base body) {handler : Run.Handler σ}
    (adds : handler.AddsNoFunctions) (s : σ) (limit : Nat) :
    ((body.run.run context : Run (Result × Context)).under handler s).1.1 ≠
      .error (.depthExceeded limit) := by
  have ended := Run.Ensures.under h adds s
  intro failed
  rw [failed] at ended
  exact ended.2 limit rfl

end Regime

/-! ## Without bodies -/

/-- Evaluates the forms of bodies by failing with `stop`, and others by `ev`. -/
def barred (stop : Error) (ev : Inner) : Inner := fun form place now =>
  match now with
  | .body _ :: _ => throw stop
  | _ => ev form place now

/-- Evaluates a form as `evalForm` does, but fails with the error `stop` where
    the body of a function begins. -/
def evalBodiless (stop : Error) : (room : Nat) → Inner
  | 0, _, _, _ => throw (.depthExceeded maxDepth)
  | room + 1, form, place, now =>
    Action.nested (evalInner
      (barred stop fun form place now => evalBodiless stop room form place now) form place now)

theorem Shortens.barred {stop : Error} {ev ev' : Inner} (h : Shortens stop ev ev') :
    Shortens stop (barred stop ev) ev' := by
  rintro form _ context context' place now rfl locals
  unfold Eval.barred
  split
  · exact Action.curtails_stop
  · exact h place _ rfl locals

theorem curtails_evalBodiless (stop : Error) (room : Nat) :
    Shortens stop (evalBodiless stop room) (evalForm room) := by
  induction room with
  | zero => exact fun _ _ _ _ => Action.curtails_throw _
  | succ room ih =>
    rintro form _ context context' place now rfl locals
    exact Shortens.nested (curtails_evalInner ih.barred form place now) locals

namespace Regime

/-- Evaluations may fail with `stop`, but not with the error of the limit. -/
def stopping (stop : Error) : Regime :=
  lenient (fun e => e = stop ∨ ∀ limit, e ≠ .depthExceeded limit)
    fun answer => ∀ limit, answer ≠ .error (.depthExceeded limit)

variable {stop : Error}

theorem lawful_stopping : (stopping stop).Lawful :=
  lawful_lenient (fun _ other => .inr other) fun _ fair =>
    .inr fun limit same => fair limit (congrArg Except.error same)

theorem enters_stopping (ev : Inner) : (stopping stop).Enters (barred stop ev) := by
  intro forms context base place now _ _
  cases forms with
  | nil => exact evaluates_pure trivial
  | cons form forms =>
    -- the first form of the body is the last one
    have stopped : (stopping stop).Evaluates context base (throw stop) := evaluates_throw (.inl rfl)
    exact stopped

theorem keeps_stopping (room : Nat) :
    (stopping stop).Keeps (Fitting (fun _ => True) room) (evalBodiless stop room) := by
  induction room with
  | zero => exact fun _ _ fits => absurd fits not_fitting_zero
  | succ room ih =>
    intro form context base place now fits scope
    have inner : (stopping stop).Keeps (Fitting (fun _ => True) room)
        (barred stop (evalBodiless stop room)) := by
      intro form context base place now fits scope
      unfold barred
      split
      · exact evaluates_throw (.inl rfl)
      · exact ih place _ fits scope
    have layer : (stopping stop).Layer (Fitting (fun _ => True) room) form :=
      layer_of_fitting fits (fun _ _ _ _ => trivial) (fun _ _ => trivial) (fun _ _ _ => trivial)
        fun _ _ _ _ => trivial
    exact lawful_stopping.evalNested inner (enters_stopping _) layer scope

end Regime

/-! ## Programs -/

theorem addsNoFunctions_unwatched (tripped : Bool) :
    (Run.Handler.unwatched tripped).AddsNoFunctions :=
  fun _ _ _ given _ => given

/-- An evaluation that comes to the limit comes to the body of a function. -/
theorem bodiless_of_depthExceeded {form : Form} (shallow : form.depth ≤ maxDepth)
    {handler : Run.Handler σ}
    (others : ∀ site value s limit,
      (handler.breakpoint site value s).1 ≠ .error (.depthExceeded limit))
    (s : σ) (place : Coordinate) (now : Moment) (locals : List Binding) {limit : Nat}
    (exceeded : (((eval form place now).start locals).under handler s).1.1 =
      .error (.depthExceeded limit)) (stop : Error) :
    (((evalBodiless stop maxDepth form place now).start locals).under handler s).1.1 =
      .error stop := by
  have curtailed : ((evalBodiless stop maxDepth form place now).start locals).Curtails
      (fun r => r.1 = .error stop) (Ends (Correspondence.identical.Returns ⟨locals, 0⟩ ⟨locals, 0⟩))
      ((eval form place now).start locals) :=
    curtails_evalBodiless stop maxDepth place now rfl rfl
  have evaluated : (Regime.stopping stop).Evaluates ⟨locals, 0⟩ 0
      (evalBodiless stop maxDepth form place now) :=
    Regime.keeps_stopping maxDepth place now ⟨trivial, shallow⟩ Regime.scope_lenient
  have ended := Run.Ensures.under evaluated others s
  rcases curtailed.under handler s with ⟨stopped, -⟩ | ⟨ends, -⟩
  · exact stopped
  · unfold Action.start at ends exceeded ⊢
    generalize Run.under handler _ s = r at ends ended ⊢
    generalize Run.under handler _ s = r' at ends exceeded
    obtain ⟨⟨result, context⟩, s⟩ := r
    obtain ⟨⟨result', context'⟩, s'⟩ := r'
    cases exceeded
    cases ends
    rcases ended.2 with rfl | other
    · rfl
    · exact absurd rfl (other limit)

/-- The limits of the reader and of the evaluator agree.  A program that the
    reader accepts, in which no list is headed by `fn`, never comes to the
    limit of the depth when there are no functions of programs among the
    bindings and the handler adds none; nor does such a text in a snapshot
    without them.  Whatever the program, the bindings and the handler are, who
    comes to the limit in a form has come to the body of a function. -/
theorem limits_agree (handler : Run.Handler σ) (s : σ) (now : Moment) :
    (handler.AddsNoFunctions → ∀ source forms locals, readForms source = .ok forms →
      (∀ form ∈ forms, form.functionFree) → (∀ binding ∈ locals, binding.2.ClosureFree) →
      ∀ limit, (((evalForms now forms).start locals).under handler s).1.1 ≠
        .error (.depthExceeded limit)) ∧
    (∀ (snapshot : Snapshot) (text : String) (tripped : Bool),
      (∀ form, readForm text = .ok form → form.functionFree) →
      (∀ binding ∈ snapshot.bindings, binding.2.ClosureFree) →
      ∀ limit, snapshot.evaluate now text tripped ≠ .error (.depthExceeded limit)) ∧
    ((∀ site value s limit, (handler.breakpoint site value s).1 ≠ .error (.depthExceeded limit)) →
      ∀ source forms locals, readForms source = .ok forms → ∀ form ∈ forms, ∀ place limit,
      (((eval form place now).start locals).under handler s).1.1 = .error (.depthExceeded limit) →
      ∀ stop, (((evalBodiless stop maxDepth form place now).start locals).under handler s).1.1 =
        .error stop) := by
  refine ⟨?_, ?_, ?_⟩
  · intro adds source forms locals read free scope limit
    have evaluated : Regime.closureFree.Evaluates ⟨locals, 0⟩ 0 (evalForms now forms) := by
      refine Regime.lawful_closureFree.evalForms (fun form mem base now scope => ?_) scope
      exact Regime.evaluates_closureFree .root now (free form mem)
        (depth_le_of_readForms read mem) scope
    exact evaluated.ne_depthExceeded adds s limit
  · intro snapshot text tripped free scope limit
    unfold Snapshot.evaluate
    split
    · simp
    · rename_i form read
      have shallow : form.depth ≤ maxDepth :=
        depth_le_of_readForms (readForms_of_readForm read) List.mem_cons_self
      have evaluated : Regime.closureFree.Evaluates ⟨snapshot.bindings, 0⟩ 0
          (eval form .root now) :=
        Regime.evaluates_closureFree .root now (free form read) shallow scope
      rw [Snapshot.evaluateForm, Run.untouched_eq_under]
      exact evaluated.ne_depthExceeded (addsNoFunctions_unwatched tripped) () limit
  · intro others source forms locals read form mem place limit exceeded stop
    exact bodiless_of_depthExceeded (depth_le_of_readForms read mem) others s place now locals
      exceeded stop

/-! A function that calls itself comes to the limit. -/

/-- A call of what `f` is bound to with itself. -/
def selfCall : Form := .list [.symbol "f", .symbol "f"]

/-- A function that calls its argument with itself. -/
def selfCaller : Form := .list [.symbol "fn", .vector [.symbol "f"], selfCall]

theorem outcome_selfCall {id : Moment} {captured : List Binding} {home : Coordinate} (room : Nat) :
    ∀ (place : Coordinate) (now : Moment) (context : Context),
      lookup? "f" context.locals = some (.closure id ["f"] [selfCall] captured home) →
      (evalForm room selfCall place now).outcome context =
        (.error (.depthExceeded maxDepth), context) := by
  induction room with
  | zero => exact fun _ _ _ _ => rfl
  | succ room ih =>
    rintro place now ⟨locals, depth⟩ found
    cases room with
    | zero => rfl
    | succ room =>
      have deeper : lookup? "f" (Context.mk locals (depth + 1)).locals = _ := found
      have symbol (i : Nat) : (evalForm (room + 1) (.symbol "f") (place.child i)
          (.item i :: now)).outcome ⟨locals, depth + 1⟩ = (.ok _, ⟨locals, depth + 1⟩) :=
        outcome_symbol deeper room (place.child i) (.item i :: now)
      have args : (evalItems (evalForm (room + 1)) place now 1 [.symbol "f"]).outcome
          ⟨locals, depth + 1⟩ = (.ok [_], ⟨locals, depth + 1⟩) :=
        Action.outcome_bind_ok (symbol 1)
      have body : (evalForm (room + 1) selfCall (home.child 2) (.body 0 :: now)).outcome
          ⟨captured ++ [("f", .closure id ["f"] [selfCall] captured home)], depth + 1⟩ = _ :=
        ih _ _ _ (lookup?_append_singleton _ _ _)
      apply Action.outcome_nested
      rw [selfCall, evalInner, Action.outcome_checkpoint_bind]
      refine (Action.outcome_bind_ok (symbol 0)).trans ?_
      refine (Action.outcome_bind_ok args).trans ?_
      exact Action.outcome_withLocals (Action.outcome_bind_error body)

theorem outcome_selfCaller (room : Nat) (place : Coordinate) (now : Moment) (context : Context) :
    (evalForm (room + 2) (.list [selfCaller, selfCaller]) place now).outcome context =
      (.error (.depthExceeded maxDepth), context) := by
  obtain ⟨locals, depth⟩ := context
  have made (i : Nat) : (evalForm (room + 1) selfCaller (place.child i) (.item i :: now)).outcome
      ⟨locals, depth + 1⟩ =
        (.ok (.closure (.item i :: now) ["f"] [selfCall] locals (place.child i)),
          ⟨locals, depth + 1⟩) := rfl
  have args : (evalItems (evalForm (room + 1)) place now 1 [selfCaller]).outcome
      ⟨locals, depth + 1⟩ = (.ok [_], ⟨locals, depth + 1⟩) := Action.outcome_bind_ok (made 1)
  apply Action.outcome_nested
  rw [evalInner, Action.outcome_checkpoint_bind]
  refine (Action.outcome_bind_ok (made 0)).trans ?_
  refine (Action.outcome_bind_ok args).trans ?_
  exact Action.outcome_withLocals (Action.outcome_bind_error
    (outcome_selfCall _ _ _ _ (lookup?_append_singleton _ _ _)))

theorem limits_agree_samples :
    (∀ limit, (((evalForms [] [.list [.symbol "let",
        .vector [.symbol "y", .tagged (.vector [.symbol "x", .int 1])],
        .list [.symbol "list", .symbol "y", .list [.symbol "quote", .symbol "x"]]]]).start
        [("x", .int 1)]).under (.unwatched false) ()).1.1 ≠ .error (.depthExceeded limit)) ∧
    (∀ limit, Snapshot.evaluate ⟨[("x", .int 1)]⟩ [] "[x 'x]" false ≠
      .error (.depthExceeded limit)) ∧
    ∀ stop, (((evalBodiless stop maxDepth (.list [selfCaller, selfCaller]) .root []).start
      []).under (.unwatched false) ()).1.1 = .error stop := by
  obtain ⟨programs, snapshots, bodies⟩ := limits_agree (.unwatched false) () []
  have data : ∀ binding ∈ [("x", Value.int 1)], binding.2.ClosureFree := by
    simpa using Value.Built.int 1
  refine ⟨?_, ?_, ?_⟩
  · refine programs (addsNoFunctions_unwatched false)
      "(let [y #break [x 1]] (list y 'x))" _ _ rfl ?_ data
    decide
  · refine snapshots ⟨[("x", .int 1)]⟩ "[x 'x]" false (fun form read => ?_) data
    have same : readForm "[x 'x]" =
        .ok (.vector [.symbol "x", .list [.symbol "quote", .symbol "x"]]) := rfl
    rw [same] at read
    cases read
    rfl
  · have exceeded : (eval (.list [selfCaller, selfCaller]) .root []).outcome ⟨[], 0⟩ =
        (.error (.depthExceeded maxDepth), ⟨[], 0⟩) := by
      unfold eval
      rw [Action.outcome_get_bind]
      exact outcome_selfCaller 510 .root [] ⟨[], 0⟩
    have read : readForms "((fn [f] (f f)) (fn [f] (f f)))" =
        .ok [.list [selfCaller, selfCaller]] := rfl
    refine bodies (fun _ _ _ _ same => nomatch same) _ _ [] read _ List.mem_cons_self .root maxDepth
      ?_
    rw [← Run.untouched_eq_under]
    exact congrArg Prod.fst exceeded

end Stepper.Eval
