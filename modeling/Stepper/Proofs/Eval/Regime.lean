/-
  What evaluations keep to.

  A `Regime` says which values there may be after how many checks, which bodies
  functions may have, with which errors evaluations may fail, and which answers
  at breakpoints are fair.  It is `Lawful` when all that evaluation makes of
  such values are such values again, and lists and vectors may come one check
  later than their items.

  Then a form keeps to the regime if the forms inside do, as far as they are
  evaluated (`Lawful.evalInner`), and a program if its forms do
  (`Lawful.evalForms`).  Every evaluation leaves its context as it was, whether
  it succeeds or fails.
-/
import Stepper.Proofs.Eval.Ensuring
import Stepper.Proofs.Eval.Scope

namespace Stepper.Eval

open Stepper.Syntax (Form)

variable {α β : Type}

/-! ## Regimes -/

/-- What evaluations keep to. -/
structure Regime where
  /-- Values that there may be after some number of checks. -/
  value : Nat → Value → Prop
  /-- Bodies that functions may have. -/
  body : List Form → Prop
  /-- Errors with which evaluations may fail. -/
  fails : Error → Prop
  /-- Answers at breakpoints. -/
  fair : Site → Value → Result → Prop

namespace Regime

variable (ρ : Regime)

/-- Bindings of values that there may be. -/
def Scope (n : Nat) (locals : List Binding) : Prop := ∀ binding ∈ locals, ρ.value n binding.2

/-- What holds of a regime that evaluations keep to. -/
structure Lawful : Prop where
  grow : ∀ {n m value}, n ≤ m → ρ.value n value → ρ.value m value
  nil : ∀ n, ρ.value n .nil
  bool : ∀ n b, ρ.value n (.bool b)
  int : ∀ n i, ρ.value n (.int i)
  float : ∀ n x, ρ.value n (.float x)
  str : ∀ n s, ρ.value n (.str s)
  builtin : ∀ n f, ρ.value n (.builtin f)
  list : ∀ {n items}, (∀ item ∈ items, ρ.value n item) → ρ.value (n + 1) (.list items)
  vector : ∀ {n items}, (∀ item ∈ items, ρ.value n item) → ρ.value (n + 1) (.vector items)
  function : ∀ {n id params body captured place}, ρ.body body → ρ.Scope n captured →
    ρ.value n (.closure id params body captured place)
  callee : ∀ {n id params body captured place},
    ρ.value n (.closure id params body captured place) → ρ.body body ∧ ρ.Scope n captured
  error : ∀ e, (∀ limit, e ≠ .depthExceeded limit) → ρ.fails e
  goes : ∀ {n site value answer}, ρ.fair site value (.ok answer) → ρ.value n value →
    ρ.Scope n site.snapshot.bindings → ρ.value n answer
  stops : ∀ {n site value e}, ρ.fair site value (.error e) → ρ.value n value →
    ρ.Scope n site.snapshot.bindings → ρ.fails e

/-- The operands of a special form, or of a call: those that are evaluated are
    as `F` says. -/
def Operands (F : Form → Prop) : Option Special → List Form → Prop
  | some .quote, operands => ∀ form ∈ operands, ∀ n, ρ.value n (.ofForm form)
  | some .binding, operands =>
    (∀ pairs, operands.head?.bind Form.vector? = some pairs → ∀ form ∈ pairs, F form) ∧
      ∀ form ∈ operands.tail, F form
  | some .function, operands => ρ.body operands.tail
  | _, operands => ∀ form ∈ operands, F form

/-- A form whose parts are as `F` says. -/
inductive Layer (F : Form → Prop) : Form → Prop
  | nil : Layer F .nil
  | bool (b : Bool) : Layer F (.bool b)
  | int (n : Int64) : Layer F (.int n)
  | float (x : Float) : Layer F (.float x)
  | str (s : String) : Layer F (.str s)
  | symbol (name : String) : Layer F (.symbol name)
  | vector {items} (each : ∀ item ∈ items, F item) : Layer F (.vector items)
  | empty : Layer F (.list [])
  | list {head operands} (called : head.symbol?.bind Special.named? = none → F head)
    (rest : ρ.Operands F (head.symbol?.bind Special.named?) operands) :
    Layer F (.list (head :: operands))
  | tagged {form} (h : F form) : Layer F (.tagged form)

variable {ρ} in
/-- A form is a layer over its parts.  `F` has to go down to the items of a
    binding vector, and quoted forms and bodies are subject to the regime. -/
theorem layer_of_items {F : Form → Prop} {form : Form} (inside : ∀ item ∈ form.items, F item)
    (under : ∀ inner, form = .tagged inner → F inner)
    (deeper : ∀ g, F g → ∀ item ∈ g.items, F item)
    (quoted : ∀ g n, F g → ρ.value n (.ofForm g))
    (function : ∀ head operands, form = .list (head :: operands) →
      head.symbol?.bind Special.named? = some .function → ρ.body operands.tail) :
    ρ.Layer F form := by
  cases form with
  | nil => exact .nil
  | bool b => exact .bool b
  | int n => exact .int n
  | float x => exact .float x
  | str s => exact .str s
  | symbol name => exact .symbol name
  | vector items => exact .vector inside
  | tagged inner => exact .tagged (under inner rfl)
  | list items =>
    cases items with
    | nil => exact .empty
    | cons head operands =>
      have each : ∀ form ∈ operands, F form := fun form mem =>
        inside form (List.mem_cons_of_mem head mem)
      refine .list (fun _ => inside head List.mem_cons_self) ?_
      match special : head.symbol?.bind Special.named? with
      | none | some .body | some .branch => exact each
      | some .quote => exact fun form mem n => quoted form n (each form mem)
      | some .function => exact function head operands rfl special
      | some .binding =>
        refine ⟨fun pairs known => ?_, fun form mem => each form (List.mem_of_mem_tail mem)⟩
        obtain ⟨vector, first, known⟩ := Option.bind_eq_some_iff.1 known
        rw [← Form.items_of_vector? known]
        exact deeper vector (each vector (List.mem_of_mem_head? first))

/-- The evaluation fails with an error that there may be, and leaves the
    context as it was. -/
def Breaks (context : Context) (e : Error) (c : Context) : Prop := c = context ∧ ρ.fails e

/-- In bindings of values that there may be after `base` checks, the action
    gives a value that there may be, so many checks later, or breaks. -/
def Evaluates (context : Context) (base : Nat) (body : Action Value) : Prop :=
  body.Ensures ρ.fair context (fun n value c => c = context ∧ ρ.value (base + n) value)
    (ρ.Breaks context)

/-- Forms as `F` says are evaluated in the regime. -/
def Keeps (F : Form → Prop) (ev : Inner) : Prop :=
  ∀ {form context base} (place : Coordinate) (now : Moment), F form →
    ρ.Scope base context.locals → ρ.Evaluates context base (ev form place now)

/-- Bodies of functions are evaluated in the regime. -/
def Enters (ev : Inner) : Prop :=
  ∀ {forms context base} (place : Coordinate) (now : Moment), ρ.body forms →
    ρ.Scope base context.locals →
    ρ.Evaluates context base (evalCallee ev place now .nil 0 forms)

variable {ρ} {F : Form → Prop} {context : Context} {base base' : Nat} {place : Coordinate}
  {now : Moment} {position : Nat} {items : List Form} {value : Value} {body : Action Value}

theorem evaluates_pure (h : ρ.value base value) : ρ.Evaluates context base (pure value) :=
  Action.ensures_pure ⟨rfl, h⟩

theorem evaluates_throw {e : Error} (h : ρ.fails e) : ρ.Evaluates context base (throw e) :=
  Action.ensures_throw ⟨rfl, h⟩

/-- What comes after an action that leaves the context as it was. -/
theorem evaluates_bind {before : Action α} {f : α → Action Value} (first : Nat → α → Prop)
    (h : before.Ensures ρ.fair context (fun n a c => c = context ∧ first n a) (ρ.Breaks context))
    (rest : ∀ n a, first n a → ρ.Evaluates context (base + n) (f a)) :
    ρ.Evaluates context base (before >>= f) := by
  refine Action.Ensures.seq h ?_
  rintro n a _ ⟨rfl, holds⟩
  have continues := rest n a holds
  simp only [Evaluates, Nat.add_assoc] at continues
  exact continues

theorem Evaluates.bind {f : Value → Action Value} (h : ρ.Evaluates context base body)
    (rest : ∀ n value, ρ.value (base + n) value → ρ.Evaluates context (base' + n) (f value)) :
    ρ.Evaluates context base' (body >>= f) :=
  evaluates_bind _ h rest

theorem Evaluates.nested (h : ρ.Evaluates { context with depth := context.depth + 1 } base body) :
    ρ.Evaluates context base body.nested := by
  refine Action.Ensures.nested (Action.Ensures.mono h ?_ ?_)
  · rintro n value c ⟨rfl, holds⟩
    exact ⟨rfl, holds⟩
  · rintro e c ⟨rfl, fails⟩
    exact ⟨rfl, fails⟩

namespace Lawful

variable (lawful : ρ.Lawful)
include lawful

theorem scope_grow {locals : List Binding} {n m : Nat} (le : n ≤ m) (h : ρ.Scope n locals) :
    ρ.Scope m locals :=
  fun binding mem => lawful.grow le (h binding mem)

theorem evaluates_grow (le : base ≤ base') (h : ρ.Evaluates context base body) :
    ρ.Evaluates context base' body := by
  refine Action.Ensures.mono h ?_ fun _ _ broken => broken
  rintro n value c ⟨rfl, holds⟩
  exact ⟨rfl, lawful.grow (by omega) holds⟩

theorem evaluates_checkpoint (h : ρ.Evaluates context (base + 1) body) :
    ρ.Evaluates context base (Action.checkpoint >>= fun _ => body) := by
  refine evaluates_bind (fun n _ => n = 1)
    (Action.ensures_checkpoint ⟨rfl, rfl⟩ ⟨rfl, lawful.error _ (by simp)⟩) ?_
  rintro n _ rfl
  exact h

theorem evaluates_breakpoint (scope : ρ.Scope base context.locals) (h : ρ.value base value) :
    ρ.Evaluates context base (Action.breakpoint place now value) := by
  have seen : ρ.Scope base (Snapshot.capture context.locals).bindings :=
    fun binding mem => scope binding (Snapshot.mem_capture mem)
  refine Action.ensures_breakpoint (fun answer fair => ?_) fun e fair => ?_
  · exact ⟨rfl, lawful.goes fair h seen⟩
  · exact ⟨rfl, lawful.stops fair h seen⟩

theorem evaluates_call {f : Builtin} {args : List Value} (each : ∀ arg ∈ args, ρ.value base arg) :
    ρ.Evaluates context (base + 1) (Action.ofExcept (f.call args)) := by
  refine Action.ensures_ofExcept (fun value result => ⟨rfl, ?_⟩) fun e failed => ⟨rfl, ?_⟩
  · have given := f.gives_call args
    rw [result] at given
    cases given with
    | bool b => exact lawful.bool _ b
    | int n => exact lawful.int _ n
    | float x => exact lawful.float _ x
    | str s => exact lawful.str _ s
    | argument mem => exact lawful.grow (by omega) (each value mem)
    | list => exact lawful.list each
    | vector => exact lawful.vector each
  · refine lawful.error e fun limit same => ?_
    rw [same] at failed
    exact f.call_ne_depthExceeded args failed

/-! ## Parts of forms -/

theorem evalSymbol (scope : ρ.Scope base context.locals) (name : String) :
    ρ.Evaluates context base (evalSymbol name) := by
  refine Action.ensures_get_bind ?_
  split
  · rename_i found
    obtain ⟨binding, mem, rfl⟩ := mem_of_lookup? found
    exact evaluates_pure (scope binding mem)
  · split
    · exact evaluates_pure (lawful.builtin _ _)
    · exact evaluates_throw (lawful.error _ (by simp))

theorem evalQuote (rest : ρ.Operands F (some .quote) items) :
    ρ.Evaluates context base (evalQuote items) := by
  unfold Eval.evalQuote
  split
  · exact evaluates_pure (rest _ List.mem_cons_self _)
  · exact evaluates_throw (lawful.error _ (by simp))

theorem evalFn (rest : ρ.Operands F (some .function) items) (scope : ρ.Scope base context.locals) :
    ρ.Evaluates context base (evalFn place now items) := by
  unfold Eval.evalFn
  split
  · exact evaluates_throw (lawful.error _ (by simp))
  · refine evaluates_bind (fun n _ => n = 0)
      (Action.ensures_ofExcept (fun _ _ => ⟨rfl, rfl⟩) fun e failed => ⟨rfl, ?_⟩) ?_
    · rw [malformed_of_parameterNames failed]
      exact lawful.error _ (by simp)
    · rintro n names rfl
      exact Action.ensures_get_bind (evaluates_pure (lawful.function rest scope))

section

variable {ev : Inner} (inner : ρ.Keeps F ev)
include inner

theorem evalItems (each : ∀ item ∈ items, F item) (scope : ρ.Scope base context.locals) :
    (evalItems ev place now position items).Ensures ρ.fair context
      (fun n values c => c = context ∧ ∀ value ∈ values, ρ.value (base + n) value)
      (ρ.Breaks context) := by
  induction items generalizing position with
  | nil => exact Action.ensures_pure ⟨rfl, by simp⟩
  | cons item items ih =>
    rw [List.forall_mem_cons] at each
    refine (inner _ _ each.1 scope).seq ?_
    rintro n value _ ⟨rfl, first⟩
    refine (ih each.2).seq ?_
    rintro m values _ ⟨rfl, others⟩
    refine Action.ensures_pure ⟨rfl, ?_⟩
    intro v mem
    rcases List.mem_cons.1 mem with rfl | mem
    · exact lawful.grow (by omega) first
    · exact lawful.grow (by omega) (others v mem)

theorem evalBody (each : ∀ item ∈ items, F item) (scope : ρ.Scope base context.locals)
    {last : Value} (h : ρ.value base last) :
    ρ.Evaluates context base (evalBody ev place now last position items) := by
  induction items generalizing position last base with
  | nil => exact evaluates_pure h
  | cons item items ih =>
    rw [List.forall_mem_cons] at each
    refine (inner _ _ each.1 scope).bind fun n value given => ?_
    exact ih each.2 (lawful.scope_grow (by omega) scope) given

theorem evalIf (each : ∀ item ∈ items, F item) (scope : ρ.Scope base context.locals) :
    ρ.Evaluates context base (evalIf ev place now items) := by
  unfold Eval.evalIf
  split
  · simp only [List.forall_mem_cons] at each
    obtain ⟨test, yes, -⟩ := each
    refine (inner _ _ test scope).bind fun n value _ => ?_
    have later : ρ.Scope (base + n) context.locals := lawful.scope_grow (by omega) scope
    split
    · exact inner _ _ yes later
    · exact evaluates_pure (lawful.nil _)
  · simp only [List.forall_mem_cons] at each
    obtain ⟨test, yes, no, -⟩ := each
    refine (inner _ _ test scope).bind fun n value _ => ?_
    have later : ρ.Scope (base + n) context.locals := lawful.scope_grow (by omega) scope
    split
    · exact inner _ _ yes later
    · exact inner _ _ no later
  · exact evaluates_throw (lawful.error _ (by simp))

/-- The bindings of a `let` come after those in scope, also when one of their
    values cannot be had. -/
theorem evalBindings (each : ∀ item ∈ items, F item) (scope : ρ.Scope base context.locals) :
    (evalBindings ev place now position items).Ensures ρ.fair context
      (fun n _ c => ∃ more, c = { context with locals := context.locals ++ more } ∧
        ρ.Scope (base + n) c.locals)
      fun e c => (∃ more, c = { context with locals := context.locals ++ more }) ∧ ρ.fails e := by
  fun_induction Eval.evalBindings ev place now position items generalizing context base with
  | case1 =>
    refine Action.ensures_throw ⟨⟨[], ?_⟩, lawful.error _ (by simp)⟩
    simp
  | case2 position name form rest symbol known ih =>
    simp only [List.forall_mem_cons] at each
    obtain ⟨-, first, others⟩ := each
    refine Action.Ensures.bind (Action.Ensures.mono (inner _ _ first scope) ?_ ?_)
    · rintro n value context' ⟨rfl, given⟩
      refine Action.ensures_modify_bind ?_
      have later : ρ.Scope (base + n) (context'.locals ++ [(symbol, value)]) := by
        intro binding mem
        rcases List.mem_append.1 mem with mem | mem
        · exact lawful.grow (by omega) (scope binding mem)
        · rw [List.mem_singleton.1 mem]
          exact given
      refine Action.Ensures.mono (ih others later) ?_ ?_
      · rintro m _ _ ⟨more, rfl, bound⟩
        refine ⟨(symbol, value) :: more, by simp, ?_⟩
        rwa [Nat.add_assoc] at bound
      · rintro e _ ⟨⟨more, rfl⟩, fails⟩
        exact ⟨⟨(symbol, value) :: more, by simp⟩, fails⟩
    · rintro e _ ⟨rfl, fails⟩
      exact ⟨⟨[], by simp⟩, fails⟩
  | case3 =>
    refine Action.ensures_pure ⟨[], ?_, scope⟩
    simp

theorem evalLet (rest : ρ.Operands F (some .binding) items) (scope : ρ.Scope base context.locals) :
    ρ.Evaluates context base (evalLet ev place now items) := by
  obtain ⟨vector, forms⟩ := rest
  unfold Eval.evalLet
  split
  · exact evaluates_throw (lawful.error _ (by simp))
  · rename_i pairs known
    split
    · exact evaluates_throw (lawful.error _ (by simp))
    · refine Action.Ensures.inScope (Action.Ensures.bind (Action.Ensures.mono
        (lawful.evalBindings inner (vector pairs known) scope) ?_ ?_))
      · rintro n _ _ ⟨more, rfl, bound⟩
        refine Action.Ensures.mono (lawful.evalBody inner forms bound (lawful.nil _)) ?_ ?_
        · rintro m value _ ⟨rfl, given⟩
          refine ⟨by simp, ?_⟩
          rwa [Nat.add_assoc] at given
        · rintro e _ ⟨rfl, fails⟩
          exact ⟨by simp, fails⟩
      · rintro e _ ⟨⟨more, rfl⟩, fails⟩
        exact ⟨by simp, fails⟩

omit inner in
theorem apply (enters : ρ.Enters ev) {head : Form} {callee : Value} {args : List Value}
    (function : ρ.value base callee) (each : ∀ arg ∈ args, ρ.value base arg) :
    ρ.Evaluates context (base + 1) (apply ev head now callee args) := by
  unfold Eval.apply
  split
  · exact lawful.evaluates_call each
  · rename_i id params forms captured place
    obtain ⟨own, bindings⟩ := lawful.callee function
    split
    · exact evaluates_throw (lawful.error _ (by simp))
    · have scope : ρ.Scope base (captured ++ params.zip args) := by
        intro binding mem
        rcases List.mem_append.1 mem with mem | mem
        · exact bindings binding mem
        · exact each _ (List.of_mem_zip mem).2
      have evaluated : ρ.Evaluates { context with locals := captured ++ params.zip args } base
          (evalCallee ev place now .nil 0 forms) := enters place now own scope
      refine Action.Ensures.withLocals (Action.Ensures.mono evaluated ?_ ?_)
      · rintro n value _ ⟨rfl, given⟩
        exact ⟨rfl, lawful.grow (by omega) given⟩
      · rintro e _ ⟨rfl, fails⟩
        exact ⟨rfl, fails⟩
  · exact evaluates_throw (lawful.error _ (by simp))

/-- A list that is evaluated may give a value that comes one check later than
    those of its items. -/
theorem evalList (enters : ρ.Enters ev) {head : Form}
    (called : head.symbol?.bind Special.named? = none → F head)
    (rest : ρ.Operands F (head.symbol?.bind Special.named?) items)
    (scope : ρ.Scope base context.locals) :
    ρ.Evaluates context (base + 1) (evalList ev place now (head :: items)) := by
  have later : ρ.Scope (base + 1) context.locals := lawful.scope_grow (by omega) scope
  simp only [Eval.evalList]
  generalize head.symbol?.bind Special.named? = special at called rest ⊢
  cases special with
  | some special =>
    cases special with
    | quote => exact lawful.evalQuote rest
    | body => exact lawful.evalBody inner rest later (lawful.nil _)
    | branch => exact lawful.evalIf inner rest later
    | binding => exact lawful.evalLet inner rest later
    | function => exact lawful.evalFn rest later
  | none =>
    refine (inner _ _ (called rfl) scope).bind fun n callee function => ?_
    refine evaluates_bind _ (lawful.evalItems inner rest scope) fun m args each => ?_
    have applied : ρ.Evaluates context (base + n + m + 1) (Eval.apply ev head now callee args) :=
      lawful.apply enters (lawful.grow (by omega) function)
        fun arg mem => lawful.grow (by omega) (each arg mem)
    exact lawful.evaluates_grow (by omega) applied

/-- A form is evaluated in the regime if the forms inside are. -/
theorem evalInner (enters : ρ.Enters ev) {form : Form} (layer : ρ.Layer F form)
    (scope : ρ.Scope base context.locals) :
    ρ.Evaluates context base (evalInner ev form place now) := by
  cases layer with
  | nil => exact evaluates_pure (lawful.nil _)
  | bool b => exact evaluates_pure (lawful.bool _ b)
  | int n => exact evaluates_pure (lawful.int _ n)
  | float x => exact evaluates_pure (lawful.float _ x)
  | str s => exact evaluates_pure (lawful.str _ s)
  | symbol name => exact lawful.evalSymbol scope name
  | vector each =>
    refine lawful.evaluates_checkpoint ?_
    refine evaluates_bind _ (lawful.evalItems inner each scope) fun n values given => ?_
    rw [Nat.add_right_comm]
    exact evaluates_pure (lawful.vector given)
  | empty =>
    refine lawful.evaluates_checkpoint (evaluates_pure (lawful.list ?_))
    simp
  | list called rest =>
    exact lawful.evaluates_checkpoint (lawful.evalList inner enters called rest scope)
  | tagged h =>
    refine (inner _ _ h scope).bind fun n value given => ?_
    exact lawful.evaluates_breakpoint (lawful.scope_grow (by omega) scope) given

/-- So it is one level deeper. -/
theorem evalNested (enters : ρ.Enters ev) {form : Form} (layer : ρ.Layer F form)
    (scope : ρ.Scope base context.locals) :
    ρ.Evaluates context base (Action.nested (Eval.evalInner ev form place now)) := by
  have deeper : ρ.Scope base { context with depth := context.depth + 1 }.locals := scope
  exact (lawful.evalInner inner enters layer deeper).nested

/-- Bodies whose forms are evaluated in the regime. -/
theorem enters_of_forall (each : ∀ forms, ρ.body forms → ∀ form ∈ forms, F form) :
    ρ.Enters ev := by
  suffices ∀ {forms context base} (place : Coordinate) (now : Moment) (position : Nat)
      (last : Value), (∀ form ∈ forms, F form) → ρ.Scope base context.locals →
      ρ.value base last → ρ.Evaluates context base (evalCallee ev place now last position forms) by
    intro forms context base place now own scope
    exact this place now 0 .nil (each forms own) scope (lawful.nil _)
  intro forms
  induction forms with
  | nil => exact fun _ _ _ _ _ _ given => evaluates_pure given
  | cons form forms ih =>
    intro context base place now position last each scope _
    rw [List.forall_mem_cons] at each
    refine (inner _ _ each.1 scope).bind fun n value given => ?_
    exact ih _ _ _ _ each.2 (lawful.scope_grow (by omega) scope) given

end

/-! ## Programs -/

/-- A program is evaluated in the regime if its forms are. -/
theorem evalForms
    (each : ∀ form ∈ items, ∀ base now, ρ.Scope base context.locals →
      ρ.Evaluates context base (eval form .root now))
    (scope : ρ.Scope base context.locals) :
    ρ.Evaluates context base (evalForms now items) := by
  suffices ∀ (base position : Nat) (last : Value), ρ.Scope base context.locals →
      ρ.value base last → ρ.Evaluates context base (evalFormsFrom now last position items) from
    this base 0 .nil scope (lawful.nil _)
  clear scope
  induction items with
  | nil => exact fun _ _ _ _ given => evaluates_pure given
  | cons form forms ih =>
    intro base position last scope _
    rw [List.forall_mem_cons] at each
    refine evaluates_bind (fun n _ => n = 0) (Action.ensures_announce ⟨rfl, rfl⟩) ?_
    rintro n _ rfl
    refine (each.1 base _ scope).bind fun m value given => ?_
    exact ih each.2 _ _ _ (lawful.scope_grow (by omega) scope) given

end Lawful

/-! ## All values -/

/-- All values and bodies may occur, and only errors and answers are told
    apart. -/
def lenient (fails : Error → Prop) (fair : Result → Prop) : Regime where
  value _ _ := True
  body _ := True
  fails := fails
  fair _ _ := fair

variable {fails : Error → Prop} {fair : Result → Prop}

theorem lawful_lenient (error : ∀ e, (∀ limit, e ≠ .depthExceeded limit) → fails e)
    (stops : ∀ e, fair (.error e) → fails e) : (lenient fails fair).Lawful where
  grow _ _ := trivial
  nil _ := trivial
  bool _ _ := trivial
  int _ _ := trivial
  float _ _ := trivial
  str _ _ := trivial
  builtin _ _ := trivial
  list _ := trivial
  vector _ := trivial
  function _ _ := trivial
  callee _ := ⟨trivial, fun _ _ => trivial⟩
  error := error
  goes _ _ _ := trivial
  stops just _ _ := stops _ just

theorem scope_lenient {locals : List Binding} : (lenient fails fair).Scope base locals :=
  fun _ _ => trivial

end Regime

end Stepper.Eval
