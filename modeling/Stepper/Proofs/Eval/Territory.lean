/-
  Where the forms stand that are evaluated.

  A `Territory` says where forms may be evaluated and where the bodies of
  functions may stand; both depend on the expressions that have been injected
  so far.  Whatever is answered at breakpoints, as long as the answers bring
  in no other functions, the evaluation of a form of the territory stays in it
  (`confined_evalForm`): only tags there are hit, and only functions with
  bodies there are made.
-/
import Mathlib.Data.Set.Insert
import Stepper.Proofs.Eval.Lexical

namespace Stepper.Eval

open Stepper.Syntax (Form)

variable {α β : Type}

/-! ## Territories -/

/-- A relation between forms and places that goes down to items and through
    tags. -/
structure Downward (P : Form → Coordinate → Prop) : Prop where
  item : ∀ {form place i item}, P form place → form.items[i]? = some item → P item (place.child i)
  inner : ∀ {form place}, P (.tagged form) place → P form place

/-- Where forms are evaluated and where bodies of functions stand, once some
    expressions have been injected. -/
structure Territory where
  lives : Set Form → Form → Coordinate → Prop
  bodies : Set Form → Form → Coordinate → Prop
  downward : ∀ w, Downward (lives w)
  grow : ∀ {w w' form place}, w ⊆ w' → lives w form place → lives w' form place
  bodies_grow : ∀ {w w' form place}, w ⊆ w' → bodies w form place → bodies w' form place
  lives_of_bodies : ∀ {w form place}, bodies w form place → lives w form place
  body : ∀ {w form place k item}, lives w form place → special? form = some .function →
    form.items[k + 2]? = some item → bodies w item (place.child (k + 2))

namespace Territory

variable (t : Territory)

/-- The forms of the body stand where bodies of functions may. -/
def Made (w : Set Form) (_ : List String) (body : List Form) (_ : List Binding)
    (place : Coordinate) : Prop :=
  ∀ k form, body[k]? = some form → t.bodies w form (place.child (k + 2))

/-- All functions in the value have bodies in the territory. -/
abbrev Holds (w : Set Form) (value : Value) : Prop := value.Built (t.Made w)

/-- All functions in the bindings have bodies in the territory. -/
def HoldsAll (w : Set Form) (locals : List Binding) : Prop :=
  ∀ binding ∈ locals, t.Holds w binding.2

variable {t} {w w' : Set Form}

theorem Holds.grow {value : Value} (h : t.Holds w value) (le : w ⊆ w') : t.Holds w' value :=
  h.mono fun _ _ _ _ made k form found => t.bodies_grow le (made k form found)

theorem HoldsAll.grow {locals : List Binding} (h : t.HoldsAll w locals) (le : w ⊆ w') :
    t.HoldsAll w' locals :=
  fun binding mem => Holds.grow (h binding mem) le

theorem HoldsAll.append {locals more : List Binding} (h : t.HoldsAll w locals)
    (h' : t.HoldsAll w more) : t.HoldsAll w (locals ++ more) := by
  intro binding mem
  rcases List.mem_append.1 mem with mem | mem
  · exact h binding mem
  · exact h' binding mem

end Territory

/-! ## Runs -/

variable {t : Territory} {w w' : Set Form}

/-- What a breakpoint reports is in the territory: the tag, the value and the
    bindings in sight. -/
structure Territory.Reports (t : Territory) (w : Set Form) (site : Site) (value : Value) :
    Prop where
  tag : ∃ inner, t.lives w (.tagged inner) site.place
  value : t.Holds w value
  sight : t.HoldsAll w site.snapshot.bindings

/-- As long as the answers come from the territory, which may grow meanwhile,
    so do the reports, and the run ends as `post` says. -/
def Run.Confined (t : Territory) (post : Set Form → α → Prop) : Run α → Set Form → Prop
  | done a, w => post w a
  | poll next, w => ∀ tripped, (next tripped).Confined t post w
  | formStart _, _ => False
  | hit site value next, w =>
    t.Reports w site value ∧ ∀ w', w ⊆ w' → ∀ answer : Result,
      (∀ v, answer = .ok v → t.Holds w' v) → (next answer).Confined t post w'

namespace Run

variable {post : Set Form → α → Prop} {r : Run α}

theorem Confined.bind {post' : Set Form → β → Prop} {f : α → Run β} (h : r.Confined t post w)
    (rest : ∀ w', w ⊆ w' → ∀ a, post w' a → (f a).Confined t post' w') :
    (r.bind f).Confined t post' w := by
  induction r generalizing w with
  | done a => exact rest w subset_rfl a h
  | poll next ih => exact fun tripped => ih tripped (h tripped) rest
  | formStart next => exact h
  | hit site value next ih =>
    refine ⟨h.1, fun w' le answer fine => ih answer (h.2 w' le answer fine) ?_⟩
    exact fun w'' le' => rest w'' (le.trans le')

theorem Confined.mono {post' : Set Form → α → Prop} (h : r.Confined t post w)
    (weaker : ∀ w', w ⊆ w' → ∀ a, post w' a → post' w' a) : r.Confined t post' w := by
  have ends : (r.bind .done).Confined t post' w :=
    h.bind fun w' le a holds => weaker w' le a holds
  rwa [bind_done] at ends

/-- When values pass through breakpoints, nothing has to be added. -/
theorem Confined.untouched (h : r.Confined t post w) (tripped : Bool) :
    post w (r.untouched tripped) := by
  induction r with
  | done a => exact h
  | poll next ih => exact ih tripped (h tripped)
  | formStart next => exact h.elim
  | hit site value next ih =>
    refine ih (.ok value) (h.2 w subset_rfl (.ok value) fun v same => ?_)
    cases same
    exact h.1.value

end Run

/-! ## Actions -/

/-- In a context the action stays in the territory, and if it succeeds it ends
    as `post` says. -/
def Action.Confined (t : Territory) (w : Set Form) (context : Context) (body : Action α)
    (post : Set Form → α → Context → Prop) : Prop :=
  (body.run.run context : Run (Except Error α × Context)).Confined t
    (fun w' r => ∀ a, r.1 = .ok a → post w' a r.2) w

namespace Action

variable {context : Context} {body : Action α} {f : α → Action β}
  {post post' : Set Form → α → Context → Prop}

theorem Confined.mono (h : body.Confined t w context post)
    (weaker : ∀ w', w ⊆ w' → ∀ a context', post w' a context' → post' w' a context') :
    body.Confined t w context post' :=
  Run.Confined.mono h fun w' le r ends a same => weaker w' le a r.2 (ends a same)

theorem confined_pure {a : α} (h : post w a context) :
    (pure a : Action α).Confined t w context post := by
  rintro b ⟨⟩
  exact h

theorem confined_throw (e : Error) : (throw e : Action α).Confined t w context post := by
  rintro b ⟨⟩

theorem Confined.bind {post : Set Form → β → Context → Prop}
    (h : body.Confined t w context fun w' a context' => (f a).Confined t w' context' post) :
    (body >>= f).Confined t w context post := by
  unfold Confined
  rw [run_bind]
  refine Run.Confined.bind h ?_
  rintro w' - ⟨result, context'⟩ continues
  cases result with
  | ok a => exact continues a rfl
  | error e =>
    rintro b ⟨⟩

theorem confined_get {post : Set Form → Context → Context → Prop} (h : post w context context) :
    (get : Action Context).Confined t w context post := by
  rintro b ⟨⟩
  exact h

theorem confined_modify {g : Context → Context} {post : Set Form → Unit → Context → Prop}
    (h : post w () (g context)) : (modify g : Action Unit).Confined t w context post := by
  rintro b ⟨⟩
  exact h

theorem confined_checkpoint {post : Set Form → Unit → Context → Prop} (h : post w () context) :
    checkpoint.Confined t w context post := by
  intro tripped
  cases tripped with
  | false =>
    rintro b ⟨⟩
    exact h
  | true => rintro b ⟨⟩

theorem confined_breakpoint {place : Coordinate} {now : Moment} {value : Value}
    {post : Set Form → Value → Context → Prop}
    (reports : t.Reports w ⟨place, now, .capture context.locals⟩ value)
    (h : ∀ w' v, w ⊆ w' → t.Holds w' v → post w' v context) :
    (breakpoint place now value).Confined t w context post := by
  refine ⟨reports, fun w' le answer fine => ?_⟩
  cases answer with
  | ok v =>
    rintro b ⟨⟩
    exact h w' v le (fine v rfl)
  | error e => rintro b ⟨⟩

theorem Confined.thenRestore {restore : Context → Context}
    (h : body.Confined t w context fun w' a context' => post w' a (restore context')) :
    (body.thenRestore restore).Confined t w context post := by
  unfold Confined
  rw [run_thenRestore]
  exact Run.Confined.bind h fun w' _ r ends => ends

theorem confined_ofExcept {r : Except Error α} (h : ∀ a, r = .ok a → post w a context) :
    (ofExcept r).Confined t w context post := by
  cases r with
  | ok a => exact confined_pure (h a rfl)
  | error e => exact confined_throw e

theorem Confined.nested (h : body.Confined t w { context with depth := context.depth + 1 }
      fun w' a context' => post w' a { context' with depth := context'.depth - 1 }) :
    body.nested.Confined t w context post :=
  Confined.bind (confined_modify (Confined.thenRestore h))

theorem Confined.withLocals {locals : List Binding}
    (h : body.Confined t w { context with locals }
      fun w' a context' => post w' a { context' with locals := context.locals }) :
    (body.withLocals locals).Confined t w context post :=
  Confined.bind (confined_get (Confined.bind (confined_modify (Confined.thenRestore h))))

theorem Confined.inScope
    (h : body.Confined t w context fun w' a context' =>
      post w' a { context' with locals := context'.locals.take context.locals.length }) :
    body.inScope.Confined t w context post :=
  Confined.bind (confined_get (Confined.thenRestore h))

end Action

/-! ## Snapshots -/

theorem Territory.HoldsAll.capture {locals : List Binding} (h : t.HoldsAll w locals) :
    t.HoldsAll w (Snapshot.capture locals).bindings :=
  fun binding mem => h binding (Snapshot.mem_capture mem)

/-! ## Parts of forms -/

variable {context : Context} {place : Coordinate} {now : Moment} {position : Nat}
  {items : List Form}

/-- An evaluation gives a value from the territory and leaves the context as it
    was. -/
def Yields (t : Territory) (context : Context) (w : Set Form) (value : Value)
    (context' : Context) : Prop :=
  context' = context ∧ t.Holds w value

/-- Forms of the territory are evaluated in it. -/
def Inhabits (t : Territory) (ev : Inner) : Prop :=
  ∀ {w form place context} (now : Moment), t.lives w form place → t.HoldsAll w context.locals →
    (ev form place now).Confined t w context (Yields t context)

/-- Items of the territory that stand side by side from a position on. -/
def Territory.Rows (t : Territory) (w : Set Form) (place : Coordinate) (position : Nat)
    (items : List Form) : Prop :=
  ∀ k item, items[k]? = some item → t.lives w item (place.child (position + k))

theorem Territory.Rows.head {item : Form} (h : t.Rows w place position (item :: items)) :
    t.lives w item (place.child position) :=
  h 0 item rfl

theorem Territory.Rows.tail {item : Form} (h : t.Rows w place position (item :: items)) :
    t.Rows w place (position + 1) items := by
  intro k other found
  have next := h (k + 1) other found
  rwa [Nat.add_comm k 1, ← Nat.add_assoc] at next

theorem Territory.Rows.grow (h : t.Rows w place position items) (le : w ⊆ w') :
    t.Rows w' place position items :=
  fun k item found => t.grow le (h k item found)

theorem Territory.rows_items {form : Form} (lives : t.lives w form place) :
    t.Rows w place 0 form.items := by
  intro k item found
  rw [Nat.zero_add]
  exact (t.downward w).item lives found

theorem confined_evalQuote :
    (evalQuote items).Confined t w context (Yields t context) := by
  unfold evalQuote
  split
  · exact Action.confined_pure ⟨rfl, Value.built_ofForm _⟩
  · exact Action.confined_throw _

theorem confined_evalSymbol (held : t.HoldsAll w context.locals) (name : String) :
    (evalSymbol name).Confined t w context (Yields t context) := by
  refine Action.Confined.bind (Action.confined_get ?_)
  split
  · rename_i found
    exact Action.confined_pure ⟨rfl, Value.built_lookup? held found⟩
  · split
    · exact Action.confined_pure ⟨rfl, .builtin _⟩
    · exact Action.confined_throw _

/-- A function that is made has its body in the form that makes it. -/
theorem confined_evalFn {head : Form} (lives : t.lives w (.list (head :: items)) place)
    (isFn : special? (.list (head :: items)) = some .function)
    (held : t.HoldsAll w context.locals) :
    (evalFn place now items).Confined t w context (Yields t context) := by
  unfold evalFn
  split
  · exact Action.confined_throw _
  · rename_i params known
    refine Action.Confined.bind (Action.confined_ofExcept fun names read => ?_)
    refine Action.Confined.bind (Action.confined_get (Action.confined_pure ⟨rfl, ?_⟩))
    refine .closure (fun k form found => t.body lives isFn ?_) held
    rw [List.getElem?_tail] at found
    exact found

section

variable {ev : Inner} (inner : Inhabits t ev)
include inner

theorem confined_evalItems (rows : t.Rows w place position items)
    (held : t.HoldsAll w context.locals) :
    (evalItems ev place now position items).Confined t w context
      fun w' values context' => context' = context ∧ ∀ value ∈ values, t.Holds w' value := by
  induction items generalizing w position with
  | nil => exact Action.confined_pure ⟨rfl, fun value mem => absurd mem List.not_mem_nil⟩
  | cons item items ih =>
    refine Action.Confined.bind ((inner _ rows.head held).mono ?_)
    rintro w' le value context' ⟨rfl, built⟩
    refine Action.Confined.bind ((ih (rows.tail.grow le) (held.grow le)).mono ?_)
    rintro w'' le' values context' ⟨rfl, each⟩
    refine Action.confined_pure ⟨rfl, fun v mem => ?_⟩
    rcases List.mem_cons.1 mem with rfl | mem
    · exact built.grow le'
    · exact each v mem

theorem confined_evalBody (rows : t.Rows w place position items)
    (held : t.HoldsAll w context.locals) {last : Value} (built : t.Holds w last) :
    (evalBody ev place now last position items).Confined t w context (Yields t context) := by
  induction items generalizing w position last with
  | nil => exact Action.confined_pure ⟨rfl, built⟩
  | cons item items ih =>
    refine Action.Confined.bind ((inner _ rows.head held).mono ?_)
    rintro w' le value context' ⟨rfl, built⟩
    exact ih (rows.tail.grow le) (held.grow le) built

theorem confined_evalCallee (rows : t.Rows w place (position + 2) items)
    (held : t.HoldsAll w context.locals) {last : Value} (built : t.Holds w last) :
    (evalCallee ev place now last position items).Confined t w context (Yields t context) := by
  induction items generalizing w position last with
  | nil => exact Action.confined_pure ⟨rfl, built⟩
  | cons item items ih =>
    refine Action.Confined.bind ((inner _ rows.head held).mono ?_)
    rintro w' le value context' ⟨rfl, built⟩
    have next := rows.tail.grow le
    rw [Nat.add_right_comm] at next
    exact ih next (held.grow le) built

theorem confined_evalIf (rows : t.Rows w place 1 items) (held : t.HoldsAll w context.locals) :
    (evalIf ev place now items).Confined t w context (Yields t context) := by
  unfold evalIf
  split
  · refine Action.Confined.bind ((inner _ rows.head held).mono ?_)
    rintro w' le value context' ⟨rfl, -⟩
    split
    · exact inner _ (rows.tail.grow le).head (held.grow le)
    · exact Action.confined_pure ⟨rfl, .nil⟩
  · refine Action.Confined.bind ((inner _ rows.head held).mono ?_)
    rintro w' le value context' ⟨rfl, -⟩
    split
    · exact inner _ (rows.tail.grow le).head (held.grow le)
    · exact inner _ (rows.tail.tail.grow le).head (held.grow le)
  · exact Action.confined_throw _

theorem confined_evalBindings (rows : t.Rows w place position items)
    (held : t.HoldsAll w context.locals) :
    (evalBindings ev place now position items).Confined t w context
      fun w' _ context' => ∃ more, context' = { context with locals := context.locals ++ more } ∧
        t.HoldsAll w' more := by
  fun_induction evalBindings ev place now position items generalizing w context with
  | case1 => exact Action.confined_throw _
  | case2 position symbol item rest name known ih =>
    refine Action.Confined.bind ((inner _ rows.tail.head held).mono ?_)
    rintro w' le value context' ⟨rfl, built⟩
    refine Action.Confined.bind (Action.confined_modify ?_)
    have bound : t.HoldsAll w' [(name, value)] := by
      intro binding mem
      rw [List.mem_singleton.1 mem]
      exact built
    refine (ih (rows.tail.tail.grow le) ((held.grow le).append bound)).mono ?_
    rintro w'' le' - context'' ⟨more, rfl, each⟩
    refine ⟨(name, value) :: more, ?_, (bound.grow le').append each⟩
    rw [List.append_assoc, List.singleton_append]
  | case3 =>
    refine Action.confined_pure ⟨[], ?_, fun binding mem => absurd mem List.not_mem_nil⟩
    rw [List.append_nil]

theorem confined_evalLet {head : Form} (lives : t.lives w (.list (head :: items)) place)
    (held : t.HoldsAll w context.locals) :
    (evalLet ev place now items).Confined t w context (Yields t context) := by
  have rows : t.Rows w place 0 (head :: items) := Territory.rows_items lives
  unfold evalLet
  split
  · exact Action.confined_throw _
  · rename_i pairs known
    split
    · exact Action.confined_throw _
    obtain ⟨vector, first, isVector⟩ := Option.bind_eq_some_iff.1 known
    obtain ⟨body, rfl⟩ := List.head?_eq_some_iff.1 first
    have inside := Territory.rows_items rows.tail.head
    rw [Form.items_of_vector? isVector] at inside
    refine Action.Confined.inScope (Action.Confined.bind
      ((confined_evalBindings inner inside held).mono ?_))
    rintro w' le - context' ⟨more, rfl, each⟩
    refine (confined_evalBody inner (rows.tail.tail.grow le)
      ((held.grow le).append each) .nil).mono ?_
    rintro w'' le' value context' ⟨rfl, built⟩
    refine ⟨?_, built⟩
    rw [List.take_left]

/-- The body of a function is evaluated where it stands, wherever it is called. -/
theorem confined_apply {head : Form} {callee : Value} {args : List Value}
    (function : t.Holds w callee) (each : ∀ arg ∈ args, t.Holds w arg) :
    (apply ev head now callee args).Confined t w context (Yields t context) := by
  unfold apply
  split
  · exact Action.confined_ofExcept fun value gives => ⟨rfl, Value.built_call each gives⟩
  · rename_i id params body captured place
    split
    · exact Action.confined_throw _
    cases function with
    | closure own bindings =>
      have rows : t.Rows w place (0 + 2) body := by
        intro k form found
        rw [Nat.zero_add, Nat.add_comm 2 k]
        exact t.lives_of_bodies (own k form found)
      have given : t.HoldsAll w (params.zip args) :=
        fun binding mem => each binding.2 (List.of_mem_zip mem).2
      have held : t.HoldsAll w captured := bindings
      refine Action.Confined.withLocals
        ((confined_evalCallee inner rows (held.append given) .nil).mono ?_)
      rintro w' - value context' ⟨rfl, built⟩
      exact ⟨rfl, built⟩
  · exact Action.confined_throw _

theorem confined_evalList (lives : t.lives w (.list items) place)
    (held : t.HoldsAll w context.locals) :
    (evalList ev place now items).Confined t w context (Yields t context) := by
  cases items with
  | nil => exact Action.confined_pure ⟨rfl, .list fun value mem => absurd mem List.not_mem_nil⟩
  | cons head operands =>
    have rows : t.Rows w place 0 (head :: operands) := Territory.rows_items lives
    simp only [evalList]
    split
    · exact confined_evalQuote
    · exact confined_evalBody inner rows.tail held .nil
    · exact confined_evalIf inner rows.tail held
    · exact confined_evalLet inner lives held
    · rename_i named
      exact confined_evalFn lives named held
    · refine Action.Confined.bind ((inner _ rows.head held).mono ?_)
      rintro w' le callee context' ⟨rfl, function⟩
      refine Action.Confined.bind
        ((confined_evalItems inner (rows.tail.grow le) (held.grow le)).mono ?_)
      rintro w'' le' args context' ⟨rfl, each⟩
      exact confined_apply inner (function.grow le') each

theorem confined_evalInner : Inhabits t (evalInner ev) := by
  intro w form place context now lives held
  cases form with
  | nil => exact Action.confined_pure ⟨rfl, .nil⟩
  | bool b => exact Action.confined_pure ⟨rfl, .bool b⟩
  | int n => exact Action.confined_pure ⟨rfl, .int n⟩
  | float x => exact Action.confined_pure ⟨rfl, .float x⟩
  | str s => exact Action.confined_pure ⟨rfl, .str s⟩
  | symbol name => exact confined_evalSymbol held name
  | vector items =>
    have rows : t.Rows w place 0 items := Territory.rows_items lives
    refine Action.Confined.bind (Action.confined_checkpoint ?_)
    refine Action.Confined.bind ((confined_evalItems inner rows held).mono ?_)
    rintro w' - values context' ⟨rfl, each⟩
    exact Action.confined_pure ⟨rfl, .vector each⟩
  | list items =>
    exact Action.Confined.bind (Action.confined_checkpoint (confined_evalList inner lives held))
  | tagged form =>
    refine Action.Confined.bind ((inner now ((t.downward w).inner lives) held).mono ?_)
    rintro w' le value context' ⟨rfl, built⟩
    refine Action.confined_breakpoint ⟨⟨form, t.grow le lives⟩, built, (held.grow le).capture⟩ ?_
    exact fun w'' v _ held' => ⟨rfl, held'⟩

end

/-- Forms of a territory are evaluated in it. -/
theorem confined_evalForm (room : Nat) : Inhabits t (evalForm room) := by
  induction room with
  | zero => exact fun _ _ _ => Action.confined_throw _
  | succ room ih =>
    intro w form place context now lives held
    have deeper : t.HoldsAll w { context with depth := context.depth + 1 }.locals := held
    refine Action.Confined.nested ((confined_evalInner ih now lives deeper).mono ?_)
    rintro w' - value context' ⟨rfl, built⟩
    exact ⟨rfl, built⟩

theorem confined_eval {form : Form} (lives : t.lives w form place)
    (held : t.HoldsAll w context.locals) :
    (eval form place now).Confined t w context (Yields t context) :=
  Action.Confined.bind (Action.confined_get (confined_evalForm _ now lives held))

end Stepper.Eval
