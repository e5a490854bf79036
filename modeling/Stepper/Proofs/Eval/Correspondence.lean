/-
  Two evaluations side by side.

  A `Correspondence` says which forms, values, scopes and errors of a first
  evaluation may go with which of a second one.  It is `Lawful` when values
  correspond that are made in the same way from parts that correspond, and
  scopes that resolve every name alike.

  A relation between actions is `Compositional₂` when it comes from their
  parts.  If it holds between the evaluations of all forms that correspond,
  then it also holds one layer further out (`Lawful.evalInner`).  What happens
  at breakpoints and to the depth is left to each such relation.
-/
import Stepper.Eval.Evaluator
import Stepper.Proofs.Eval.Congruence

namespace Stepper.Eval

open Stepper.Syntax (Form)

/-! ## Forms -/

/-- What of a first evaluation may go with what of a second one. -/
structure Correspondence where
  /-- Forms at a place. -/
  form : Coordinate → Form → Form → Prop
  value : Value → Value → Prop
  scope : List Binding → List Binding → Prop
  error : Error → Error → Prop

namespace Correspondence

variable (κ : Correspondence)

/-- Forms side by side that correspond in their places, from a position on. -/
inductive Rows (place : Coordinate) : Nat → List Form → List Form → Prop
  | nil {position} : Rows place position [] []
  | cons {position form form' forms forms'} (first : κ.form (place.child position) form form')
    (rest : Rows place (position + 1) forms forms') :
    Rows place position (form :: forms) (form' :: forms')

/-- Binding vectors that bind the same names to forms that correspond. -/
inductive Pairs (place : Coordinate) : Nat → List Form → List Form → Prop
  | nil {position} : Pairs place position [] []
  | single {position} (form form' : Form) : Pairs place position [form] [form']
  | pair {position name name' form form' rest rest'} (known : name.symbol? = name'.symbol?)
    (first : κ.form (place.child (position + 1)) form form')
    (others : Pairs place (position + 2) rest rest') :
    Pairs place position (name :: form :: rest) (name' :: form' :: rest')

/-- Operands of a special form, or of a call, whose parts correspond. -/
def Operands (place : Coordinate) : Option Special → List Form → List Form → Prop
  | some .quote, operands, operands' => Value.ofForms operands = Value.ofForms operands'
  | some .binding, operands, operands' =>
    Option.Rel (κ.Pairs (place.child 1) 0) (operands.head?.bind Form.vector?)
        (operands'.head?.bind Form.vector?) ∧
      κ.Rows place 2 operands.tail operands'.tail
  | some .function, operands, operands' =>
    Option.Rel (List.Forall₂ fun param param' => param.symbol? = param'.symbol?)
        (operands.head?.bind Form.vector?) (operands'.head?.bind Form.vector?) ∧
      κ.Rows place 2 operands.tail operands'.tail
  | _, operands, operands' => κ.Rows place 1 operands operands'

/-- Heads that correspond also where what they stand for cannot be called. -/
def Heads (place : Coordinate) (head head' : Form) : Prop :=
  κ.form (place.child 0) head head' ∧ ∀ callee callee', κ.value callee callee' →
    κ.error (.notCallable (calleeText head callee)) (.notCallable (calleeText head' callee'))

/-- Forms that are made in the same way from parts that correspond, and are not
    under a tag. -/
inductive Layer (place : Coordinate) : Form → Form → Prop
  | nil : Layer place .nil .nil
  | bool (b : Bool) : Layer place (.bool b) (.bool b)
  | int (n : Int64) : Layer place (.int n) (.int n)
  | float (x : Float) : Layer place (.float x) (.float x)
  | str (s : String) : Layer place (.str s) (.str s)
  | symbol (name : String) : Layer place (.symbol name) (.symbol name)
  | vector {items items'} (each : κ.Rows place 0 items items') :
    Layer place (.vector items) (.vector items')
  | empty : Layer place (.list []) (.list [])
  | list {head head' operands operands'}
    (special : head.symbol?.bind Special.named? = head'.symbol?.bind Special.named?)
    (heads : head.symbol?.bind Special.named? = none → κ.Heads place head head')
    (rest : κ.Operands place (head.symbol?.bind Special.named?) operands operands') :
    Layer place (.list (head :: operands)) (.list (head' :: operands'))

/-- What holds of a correspondence that evaluation keeps. -/
structure Lawful : Prop where
  values : Value.Congruence κ.value
  lookup : ∀ {locals locals'}, κ.scope locals locals' → ∀ name,
    Option.Rel κ.value (lookup? name locals) (lookup? name locals')
  push : ∀ {locals locals' value value'} (name : String), κ.scope locals locals' →
    κ.value value value' → κ.scope (locals ++ [(name, value)]) (locals' ++ [(name, value')])
  function : ∀ {id params body body' captured captured' place}, κ.Rows place 2 body body' →
    κ.scope captured captured' →
    κ.value (.closure id params body captured place) (.closure id params body' captured' place)
  callee : ∀ {id params body body' captured captured' place},
    κ.value (.closure id params body captured place) (.closure id params body' captured' place) →
    κ.Rows place 2 body body' ∧ κ.scope captured captured'
  error : ∀ e, κ.error e e

variable {κ}

theorem Pairs.length_eq {place : Coordinate} {position : Nat} {pairs pairs' : List Form}
    (h : κ.Pairs place position pairs pairs') : pairs.length = pairs'.length := by
  induction h with
  | nil | single => rfl
  | pair _ _ _ ih => rw [List.length_cons, List.length_cons, ih]; rfl

/-- Bindings of the same names to values that correspond. -/
def Bindings (κ : Correspondence) (binding binding' : Binding) : Prop :=
  binding.1 = binding'.1 ∧ κ.value binding.2 binding'.2

theorem Lawful.append (lawful : κ.Lawful) {locals locals' more more' : List Binding}
    (h : κ.scope locals locals') (each : List.Forall₂ κ.Bindings more more') :
    κ.scope (locals ++ more) (locals' ++ more') := by
  induction each generalizing locals locals' with
  | nil => rwa [List.append_nil, List.append_nil]
  | @cons binding binding' _ _ first _ ih =>
    obtain ⟨name, value⟩ := binding
    obtain ⟨name', value'⟩ := binding'
    obtain ⟨rfl, related⟩ := first
    have grown := ih (lawful.push name h related)
    rwa [List.append_assoc, List.append_assoc] at grown

theorem parameterNames_congr {params params' : List Form}
    (known : List.Forall₂ (fun param param' : Form => param.symbol? = param'.symbol?)
      params params') :
    parameterNames params = parameterNames params' := by
  induction known with
  | nil => rfl
  | cons first _ ih =>
    unfold parameterNames at ih ⊢
    rw [List.mapM_cons, List.mapM_cons, first, ih]

end Correspondence

/-! ## Actions -/

namespace Action

/-- A relation between two actions in contexts of their own, and what both end
    with, that comes from their parts.  They may fail with errors as `E` says. -/
structure Compositional₂ (E : Error → Error → Prop)
    (T : ∀ {α β : Type}, Context → Context → Action α → Action β →
      (α → Context → β → Context → Prop) → Prop) : Prop where
  pure : ∀ {α β : Type} {c c' : Context} {a : α} {b : β}
    {post : α → Context → β → Context → Prop}, post a c b c' → T c c' (pure a) (pure b) post
  throw : ∀ {α β : Type} {c c' : Context} {e e' : Error}
    {post : α → Context → β → Context → Prop}, E e e' → T c c' (throw e) (throw e') post
  mono : ∀ {α β : Type} {c c' : Context} {body : Action α} {body' : Action β}
    {post post' : α → Context → β → Context → Prop}, T c c' body body' post →
    (∀ a c b c', post a c b c' → post' a c b c') → T c c' body body' post'
  bind : ∀ {α β γ δ : Type} {c c' : Context} {body : Action α} {body' : Action β}
    {f : α → Action γ} {f' : β → Action δ} {post : γ → Context → δ → Context → Prop},
    T c c' body body' (fun a c b c' => T c c' (f a) (f' b) post) →
    T c c' (body >>= f) (body' >>= f') post
  get : ∀ {c c' : Context} {post : Context → Context → Context → Context → Prop},
    post c c c' c' → T c c' (get : Action Context) (get : Action Context) post
  modify : ∀ {c c' : Context} {g g' : Context → Context}
    {post : Unit → Context → Unit → Context → Prop}, post () (g c) () (g' c') →
    T c c' (modify g : Action Unit) (modify g' : Action Unit) post
  checkpoint : ∀ {c c' : Context} {post : Unit → Context → Unit → Context → Prop},
    post () c () c' → T c c' checkpoint checkpoint post
  thenRestore : ∀ {α β : Type} {c c' : Context} {body : Action α} {body' : Action β}
    {restore restore' : Context → Context} {post : α → Context → β → Context → Prop},
    T c c' body body' (fun a c b c' => post a (restore c) b (restore' c')) →
    T c c' (body.thenRestore restore) (body'.thenRestore restore') post

namespace Compositional₂

variable {E : Error → Error → Prop}
  {T : ∀ {α β : Type}, Context → Context → Action α → Action β →
    (α → Context → β → Context → Prop) → Prop} (t : Compositional₂ E T)
  {α β : Type} {context context' : Context} {body : Action α} {body' : Action β}
  {post : α → Context → β → Context → Prop}
include t

theorem ofExcept (same : ∀ e, E e e) {R : α → β → Prop} {r : Except Error α} {r' : Except Error β}
    (h : Concur R r r') (holds : ∀ a b, R a b → post a context b context') :
    T context context' (ofExcept r) (ofExcept r') post := by
  cases h with
  | ok h => exact t.pure (holds _ _ h)
  | error e => exact t.throw (same e)

theorem nested
    (h : T { context with depth := context.depth + 1 } { context' with depth := context'.depth + 1 }
      body body' fun a c b c' =>
        post a { c with depth := c.depth - 1 } b { c' with depth := c'.depth - 1 }) :
    T context context' body.nested body'.nested post :=
  t.bind (t.modify (t.thenRestore h))

theorem withLocals {locals locals' : List Binding}
    (h : T { context with locals } { context' with locals := locals' } body body' fun a c b c' =>
      post a { c with locals := context.locals } b { c' with locals := context'.locals }) :
    T context context' (body.withLocals locals) (body'.withLocals locals') post :=
  t.bind (t.get (t.bind (t.modify (t.thenRestore h))))

theorem inScope
    (h : T context context' body body' fun a c b c' =>
      post a { c with locals := c.locals.take context.locals.length } b
        { c' with locals := c'.locals.take context'.locals.length }) :
    T context context' body.inScope body'.inScope post :=
  t.bind (t.get (t.thenRestore h))

end Compositional₂

end Action

/-! ## Parts of forms -/

namespace Correspondence

/-- Both evaluations give values that correspond, and leave their contexts as
    they were. -/
def Returns (κ : Correspondence) (context context' : Context) (value : Value) (c : Context)
    (value' : Value) (c' : Context) : Prop :=
  c = context ∧ c' = context' ∧ κ.value value value'

/-- Forms that correspond are evaluated as `T` says, in scopes that correspond. -/
def Carries (κ : Correspondence)
    (T : ∀ {α β : Type}, Context → Context → Action α → Action β →
      (α → Context → β → Context → Prop) → Prop) (ev ev' : Inner) : Prop :=
  ∀ {form form' context context'} (place : Coordinate) (now : Moment), κ.form place form form' →
    κ.scope context.locals context'.locals →
    T context context' (ev form place now) (ev' form' place now) (κ.Returns context context')

variable {κ : Correspondence}
  {T : ∀ {α β : Type}, Context → Context → Action α → Action β →
    (α → Context → β → Context → Prop) → Prop}
  {context context' : Context} {place : Coordinate} {now : Moment} {position : Nat}
  {items items' : List Form}

section

variable {ev ev' : Inner} (inner : κ.Carries T ev ev') (t : Action.Compositional₂ κ.error T)
include inner t

theorem Carries.evalItems (each : κ.Rows place position items items')
    (scopes : κ.scope context.locals context'.locals) :
    T context context' (evalItems ev place now position items)
      (evalItems ev' place now position items') fun values c values' c' =>
        c = context ∧ c' = context' ∧ List.Forall₂ κ.value values values' := by
  induction each with
  | nil => exact t.pure ⟨rfl, rfl, .nil⟩
  | cons first _ ih =>
    refine t.bind (t.mono (inner _ _ first scopes) ?_)
    rintro value c value' c' ⟨rfl, rfl, related⟩
    refine t.bind (t.mono ih ?_)
    rintro values c values' c' ⟨rfl, rfl, others⟩
    exact t.pure ⟨rfl, rfl, .cons related others⟩

theorem Carries.evalBody (each : κ.Rows place position items items')
    (scopes : κ.scope context.locals context'.locals) {last last' : Value}
    (related : κ.value last last') :
    T context context' (evalBody ev place now last position items)
      (evalBody ev' place now last' position items') (κ.Returns context context') := by
  induction each generalizing last last' with
  | nil => exact t.pure ⟨rfl, rfl, related⟩
  | cons first _ ih =>
    refine t.bind (t.mono (inner _ _ first scopes) ?_)
    rintro value c value' c' ⟨rfl, rfl, related⟩
    exact ih related

theorem Carries.evalCallee (each : κ.Rows place (position + 2) items items')
    (scopes : κ.scope context.locals context'.locals) {last last' : Value}
    (related : κ.value last last') :
    T context context' (evalCallee ev place now last position items)
      (evalCallee ev' place now last' position items') (κ.Returns context context') := by
  generalize start : position + 2 = first at each
  induction each generalizing position last last' with
  | nil => exact t.pure ⟨rfl, rfl, related⟩
  | cons first _ ih =>
    subst start
    refine t.bind (t.mono (inner _ _ first scopes) ?_)
    rintro value c value' c' ⟨rfl, rfl, related⟩
    exact ih related (by omega)

end

namespace Lawful

variable (lawful : κ.Lawful) (t : Action.Compositional₂ κ.error T)
include lawful t

theorem evalQuote (same : Value.ofForms items = Value.ofForms items') :
    T context context' (evalQuote items) (evalQuote items') (κ.Returns context context') := by
  match items, items' with
  | [], [] | _ :: _ :: _, _ :: _ :: _ => exact t.throw (lawful.error _)
  | [form], [form'] =>
    simp only [Value.ofForms, List.cons.injEq, and_true] at same
    refine t.pure ⟨rfl, rfl, ?_⟩
    rw [same]
    exact lawful.values.ofForm form'
  | [], _ :: _ | _ :: _, [] | [_], _ :: _ :: _ | _ :: _ :: _, [_] => simp [Value.ofForms] at same

theorem evalSymbol (scopes : κ.scope context.locals context'.locals) (name : String) :
    T context context' (evalSymbol name) (evalSymbol name) (κ.Returns context context') := by
  refine t.bind (t.get ?_)
  have found := lawful.lookup scopes name
  generalize lookup? name context.locals = left at found ⊢
  generalize lookup? name context'.locals = right at found ⊢
  cases found with
  | some related => exact t.pure ⟨rfl, rfl, related⟩
  | none =>
    simp only
    split
    · exact t.pure ⟨rfl, rfl, lawful.values.builtin _⟩
    · exact t.throw (lawful.error _)

theorem evalFn (rest : κ.Operands place (some .function) items items')
    (scopes : κ.scope context.locals context'.locals) :
    T context context' (evalFn place now items) (evalFn place now items')
      (κ.Returns context context') := by
  obtain ⟨params, body⟩ := rest
  unfold Eval.evalFn
  generalize items.head?.bind Form.vector? = left at params ⊢
  generalize items'.head?.bind Form.vector? = right at params ⊢
  cases params with
  | none => exact t.throw (lawful.error _)
  | some known =>
    simp only [parameterNames_congr known]
    have read : ∀ names : Except Error (List String), Concur (· = ·) names names := by
      rintro (e | names)
      · exact .error e
      · exact .ok rfl
    refine t.bind (t.ofExcept lawful.error (read _) ?_)
    rintro names - rfl
    exact t.bind (t.get (t.pure ⟨rfl, rfl, lawful.function body scopes⟩))

section

variable {ev ev' : Inner} (inner : κ.Carries T ev ev')
include inner

theorem evalIf (each : κ.Rows place 1 items items')
    (scopes : κ.scope context.locals context'.locals) :
    T context context' (evalIf ev place now items) (evalIf ev' place now items')
      (κ.Returns context context') := by
  rcases each with _ | ⟨test, _ | ⟨yes, _ | ⟨no, _ | ⟨more, rest⟩⟩⟩⟩
  · exact t.throw (lawful.error _)
  · exact t.throw (lawful.error _)
  · refine t.bind (t.mono (inner _ _ test scopes) ?_)
    rintro value c value' c' ⟨rfl, rfl, related⟩
    rw [lawful.values.truthy related]
    split
    · exact inner _ _ yes scopes
    · exact t.pure ⟨rfl, rfl, lawful.values.nil⟩
  · refine t.bind (t.mono (inner _ _ test scopes) ?_)
    rintro value c value' c' ⟨rfl, rfl, related⟩
    rw [lawful.values.truthy related]
    split
    · exact inner _ _ yes scopes
    · exact inner _ _ no scopes
  · exact t.throw (lawful.error _)

theorem evalBindings (pairs : κ.Pairs place position items items')
    (scopes : κ.scope context.locals context'.locals) :
    T context context' (evalBindings ev place now position items)
      (evalBindings ev' place now position items') fun _ c _ c' => ∃ more more',
        c = { context with locals := context.locals ++ more } ∧
        c' = { context' with locals := context'.locals ++ more' } ∧
        List.Forall₂ κ.Bindings more more' := by
  induction pairs generalizing context context' with
  | nil | single =>
    refine t.pure ⟨[], [], ?_, ?_, .nil⟩
    · rw [List.append_nil]
    · rw [List.append_nil]
  | @pair position name name' form form' rest rest' known first _ ih =>
    simp only [Eval.evalBindings, known]
    cases name'.symbol? with
    | none => exact t.throw (lawful.error _)
    | some name =>
      refine t.bind (t.mono (inner _ _ first scopes) ?_)
      rintro value c value' c' ⟨rfl, rfl, related⟩
      refine t.bind (t.modify (t.mono (ih (lawful.push name scopes related)) ?_))
      rintro - c - c' ⟨more, more', rfl, rfl, each⟩
      refine ⟨(name, value) :: more, (name, value') :: more', ?_, ?_, .cons ⟨rfl, related⟩ each⟩
      · rw [List.append_assoc, List.singleton_append]
      · rw [List.append_assoc, List.singleton_append]

theorem evalLet (rest : κ.Operands place (some .binding) items items')
    (scopes : κ.scope context.locals context'.locals) :
    T context context' (evalLet ev place now items) (evalLet ev' place now items')
      (κ.Returns context context') := by
  obtain ⟨vectors, body⟩ := rest
  unfold Eval.evalLet
  generalize items.head?.bind Form.vector? = left at vectors ⊢
  generalize items'.head?.bind Form.vector? = right at vectors ⊢
  cases vectors with
  | none => exact t.throw (lawful.error _)
  | some pairs =>
    simp only [pairs.length_eq]
    split
    · exact t.throw (lawful.error _)
    · refine t.inScope (t.bind (t.mono (lawful.evalBindings t inner pairs scopes) ?_))
      rintro - c - c' ⟨more, more', rfl, rfl, each⟩
      refine t.mono (inner.evalBody t body (lawful.append scopes each) lawful.values.nil) ?_
      rintro value c value' c' ⟨rfl, rfl, related⟩
      refine ⟨?_, ?_, related⟩
      · rw [List.take_left]
      · rw [List.take_left]

theorem apply {head head' : Form} {callee callee' : Value} (function : κ.value callee callee')
    (texts : κ.error (.notCallable (calleeText head callee))
      (.notCallable (calleeText head' callee'))) {args args' : List Value}
    (each : List.Forall₂ κ.value args args') :
    T context context' (apply ev head now callee args) (apply ev' head' now callee' args')
      (κ.Returns context context') := by
  cases lawful.values.outline function with
  | nil | bool | int | float | str | symbol | list | vector => exact t.throw texts
  | builtin f =>
    exact t.ofExcept lawful.error (lawful.values.concur_call f each)
      fun _ _ related => ⟨rfl, rfl, related⟩
  | closure id params body body' captured captured' place =>
    obtain ⟨forms, bindings⟩ := lawful.callee function
    simp only [Eval.apply, each.length_eq]
    split
    · exact t.throw (lawful.error _)
    · have given : List.Forall₂ κ.Bindings (params.zip args) (params.zip args') := by
        clear * - each
        induction each generalizing params with
        | nil => simp
        | cons first _ ih =>
          cases params with
          | nil => exact .nil
          | cons param params => exact .cons ⟨rfl, first⟩ (ih params)
      refine t.withLocals (t.mono (inner.evalCallee t forms
        (lawful.append bindings given) lawful.values.nil) ?_)
      rintro value c value' c' ⟨rfl, rfl, related⟩
      exact ⟨rfl, rfl, related⟩

theorem evalList {head head' : Form}
    (special : head.symbol?.bind Special.named? = head'.symbol?.bind Special.named?)
    (heads : head.symbol?.bind Special.named? = none → κ.Heads place head head')
    (rest : κ.Operands place (head.symbol?.bind Special.named?) items items')
    (scopes : κ.scope context.locals context'.locals) :
    T context context' (evalList ev place now (head :: items))
      (evalList ev' place now (head' :: items')) (κ.Returns context context') := by
  simp only [Eval.evalList, ← special]
  clear special
  generalize head.symbol?.bind Special.named? = special at heads rest ⊢
  match special with
  | some .quote => exact lawful.evalQuote t rest
  | some .body => exact inner.evalBody t rest scopes lawful.values.nil
  | some .branch => exact lawful.evalIf t inner rest scopes
  | some .binding => exact lawful.evalLet t inner rest scopes
  | some .function => exact lawful.evalFn t rest scopes
  | none =>
    obtain ⟨first, texts⟩ := heads rfl
    refine t.bind (t.mono (inner _ _ first scopes) ?_)
    rintro callee c callee' c' ⟨rfl, rfl, function⟩
    refine t.bind (t.mono (inner.evalItems t rest scopes) ?_)
    rintro args c args' c' ⟨rfl, rfl, each⟩
    exact lawful.apply t inner function (texts _ _ function) each

/-- Forms of one layer are evaluated as `T` says if the forms inside are. -/
theorem evalInner {form form' : Form} (layer : κ.Layer place form form')
    (scopes : κ.scope context.locals context'.locals) :
    T context context' (evalInner ev form place now) (evalInner ev' form' place now)
      (κ.Returns context context') := by
  cases layer with
  | nil => exact t.pure ⟨rfl, rfl, lawful.values.nil⟩
  | bool b => exact t.pure ⟨rfl, rfl, lawful.values.bool b⟩
  | int n => exact t.pure ⟨rfl, rfl, lawful.values.int n⟩
  | float x => exact t.pure ⟨rfl, rfl, lawful.values.float x⟩
  | str s => exact t.pure ⟨rfl, rfl, lawful.values.str s⟩
  | symbol name => exact lawful.evalSymbol t scopes name
  | vector each =>
    refine t.bind (t.checkpoint (t.bind (t.mono (inner.evalItems t each scopes) ?_)))
    rintro values c values' c' ⟨rfl, rfl, each⟩
    exact t.pure ⟨rfl, rfl, lawful.values.vector each⟩
  | empty => exact t.bind (t.checkpoint (t.pure ⟨rfl, rfl, lawful.values.list .nil⟩))
  | list special heads rest =>
    exact t.bind (t.checkpoint (lawful.evalList t inner special heads rest scopes))

end

end Lawful

end Correspondence

end Stepper.Eval
