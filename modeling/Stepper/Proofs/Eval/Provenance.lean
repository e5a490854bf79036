/-
  Where breakpoints come from.

  While a top-level form of a program is evaluated, every tag that is hit
  stands in this form, or in the body of a function that an injected
  expression has made since the form began (`Home`, `plays_evalForms`).  An
  expression is evaluated without anyone watching, but the functions that it
  makes keep the tags in their bodies (`holds_evaluateForm`).
-/
import Stepper.Proofs.Eval.Territory

namespace Stepper.Eval

open Stepper.Syntax (Form readForms)

variable {α β : Type}

/-! ## Places of forms -/

/-- A form that stands inside one of some forms at their places, on a way
    through items and tags. -/
inductive Within (base : Form → Coordinate → Prop) : Form → Coordinate → Prop
  | base {form place} (h : base form place) : Within base form place
  | item {form place i item} (h : Within base form place) (found : form.items[i]? = some item) :
    Within base item (place.child i)
  | inner {form place} (h : Within base (.tagged form) place) : Within base form place

/-- The coordinate leads from the root to the form. -/
def StandsIn (root : Form) : Form → Coordinate → Prop :=
  Within fun form place => form = root ∧ place = .root

/-- The coordinate leads from the root to the form, through the body of a
    function. -/
def StandsInBody (root : Form) : Form → Coordinate → Prop :=
  Within fun form place => ∃ function outer k, StandsIn root function outer ∧
    special? function = some .function ∧ function.items[k + 2]? = some form ∧
    place = outer.child (k + 2)

/-- The form stands in the root, or in the body of a function of one of some
    expressions. -/
def Home (root : Form) (expressions : Set Form) (form : Form) (place : Coordinate) : Prop :=
  StandsIn root form place ∨ ∃ expression ∈ expressions, StandsInBody expression form place

variable {root form item expression : Form} {place : Coordinate} {w w' : Set Form}

theorem standsIn_root (root : Form) : StandsIn root root .root := .base ⟨rfl, rfl⟩

theorem StandsInBody.standsIn (h : StandsInBody root form place) : StandsIn root form place := by
  induction h with
  | base h =>
    obtain ⟨function, outer, k, stands, -, found, rfl⟩ := h
    exact stands.item found
  | item _ found ih => exact ih.item found
  | inner _ ih => exact ih.inner

theorem downward_home : Downward (Home root w) where
  item := by
    rintro form place i item (h | ⟨expression, mem, h⟩) found
    · exact .inl (h.item found)
    · exact .inr ⟨expression, mem, h.item found⟩
  inner := by
    rintro form place (h | ⟨expression, mem, h⟩)
    · exact .inl h.inner
    · exact .inr ⟨expression, mem, h.inner⟩

theorem Home.grow (h : Home root w form place) (le : w ⊆ w') : Home root w' form place :=
  h.imp_right fun ⟨expression, mem, stands⟩ => ⟨expression, le mem, stands⟩

/-- Where the coordinate leads, as the names in scope are told. -/
theorem StandsIn.at? (narrow : root.Narrow (UInt32.size - 1)) (h : StandsIn root form place) :
    ∃ p, Eval.at? root place = some p ∧ p.form.Strips form := by
  induction h with
  | base h =>
    obtain ⟨rfl, rfl⟩ := h
    exact ⟨_, at?_root _, .refl _⟩
  | @item form place i item _ found ih =>
    obtain ⟨p, here, strips⟩ := ih
    rw [← strips.items] at found
    have child : p.child? i = some
        ⟨item, special? p.form = some .binding && i = 1, p.names ++ p.added i⟩ := by
      rw [Standing.child?, found]
      rfl
    exact ⟨_, at?_child narrow here child, .refl item⟩
  | inner _ ih =>
    obtain ⟨p, here, strips⟩ := ih
    exact ⟨p, here, strips.inner⟩

/-! ## Expressions at a breakpoint -/

/-- The territory of a top-level form: functions may be called wherever forms
    are evaluated, so their bodies may stand anywhere in it. -/
def Territory.ofForm (root : Form) : Territory where
  lives := Home root
  bodies := Home root
  downward _ := downward_home
  grow le h := h.grow le
  bodies_grow le h := h.grow le
  lives_of_bodies := id
  body lives _ found := downward_home.item lives found

/-- The territory of an expression that is evaluated while the form is. -/
def Territory.ofReply (root expression : Form) : Territory where
  lives w form place := StandsIn expression form place ∨ Home root w form place
  bodies w := Home root (insert expression w)
  downward w :=
    ⟨fun h found => h.imp (·.item found) (downward_home.item · found),
      fun h => h.imp .inner downward_home.inner⟩
  grow le h := h.imp_right (·.grow le)
  bodies_grow le h := h.grow (Set.insert_subset_insert le)
  lives_of_bodies := by
    rintro w form place (stands | ⟨other, rfl | mem, stands⟩)
    · exact .inr (.inl stands)
    · exact .inl stands.standsIn
    · exact .inr (.inr ⟨other, mem, stands⟩)
  body := by
    rintro w form place k item (stands | home) isFn found
    · exact .inr ⟨expression, Set.mem_insert _ _, .base ⟨form, place, k, stands, isFn, found, rfl⟩⟩
    · exact (downward_home.item home found).grow (Set.subset_insert _ _)

/-- The functions in the value of an expression are those in sight, and those
    that the expression makes. -/
theorem holds_evaluateForm {s : Snapshot} (sight : (Territory.ofForm root).HoldsAll w s.bindings)
    {now : Moment} {tripped : Bool} {value : Value}
    (evaluates : s.evaluateForm now expression tripped = .ok value) :
    (Territory.ofForm root).Holds (insert expression w) value := by
  have held : (Territory.ofReply root expression).HoldsAll w s.bindings :=
    Territory.HoldsAll.grow (t := Territory.ofForm root) sight (Set.subset_insert _ _)
  have confined : (eval expression .root now).Confined (Territory.ofReply root expression) w
      ⟨s.bindings, 0⟩ (Yields _ ⟨s.bindings, 0⟩) :=
    confined_eval (.inl (standsIn_root expression)) held
  exact (Run.Confined.untouched confined tripped value evaluates).2

/-! ## Programs -/

/-- The run of a program of whose forms some have begun, while expressions are
    injected: what it reports stands at home in the form that has begun last. -/
def Run.Plays (forms : List Form) : Run α → (begun : Nat) → Set Form → Prop
  | done _, _, _ => True
  | poll next, begun, w => ∀ tripped, (next tripped).Plays forms begun w
  | formStart next, begun, _ => next.Plays forms (begun + 1) ∅
  | hit site value next, begun, w => ∃ k root, begun = k + 1 ∧ forms[k]? = some root ∧
    (Territory.ofForm root).Reports w site value ∧ ∀ w', w ⊆ w' → ∀ answer : Result,
      (∀ v, answer = .ok v → (Territory.ofForm root).Holds w' v) →
        (next answer).Plays forms begun w'

variable {forms : List Form}

theorem Run.Confined.plays {k : Nat} (here : forms[k]? = some root)
    {post : Set Form → α → Prop} {r : Run α} {f : α → Run β}
    (h : r.Confined (Territory.ofForm root) post w)
    (rest : ∀ w' a, post w' a → (f a).Plays forms (k + 1) w') :
    (r.bind f).Plays forms (k + 1) w := by
  induction r generalizing w with
  | done a => exact rest w a h
  | poll next ih => exact fun tripped => ih tripped (h tripped)
  | formStart next => exact h.elim
  | hit site value next ih =>
    exact ⟨k, root, rfl, here, h.1, fun w' le answer fine => ih answer (h.2 w' le answer fine)⟩

theorem Run.Plays.map {r : Run α} {begun : Nat} (h : r.Plays forms begun w) (f : α → β) :
    (r.bind fun a => .done (f a)).Plays forms begun w := by
  induction r generalizing begun w with
  | done a => trivial
  | poll next ih => exact fun tripped => ih tripped (h tripped)
  | formStart next ih => exact ih h
  | hit site value next ih =>
    obtain ⟨k, root, same, here, reports, continues⟩ := h
    exact ⟨k, root, same, here, reports, fun w' le answer fine =>
      ih answer (continues w' le answer fine)⟩

/-- A program whose context holds no function begins its forms one after
    another and stays in the territory of each. -/
theorem plays_evalFormsFrom {context : Context}
    (data : ∀ binding ∈ context.locals, binding.2.ClosureFree) {now : Moment} {last : Value}
    {done rest : List Form} {position : Nat} :
    ((evalFormsFrom now last position rest).run.run context : Run (Result × Context)).Plays
      (done ++ rest) done.length w := by
  induction rest generalizing done last position w with
  | nil => trivial
  | cons form rest ih =>
    have here : (done ++ form :: rest)[done.length]? = some form := by simp
    have held : (Territory.ofForm form).HoldsAll ∅ context.locals := fun binding mem =>
      (data binding mem).mono fun _ _ _ _ none => none.elim
    have confined : (eval form .root (.form position :: now)).Confined (Territory.ofForm form) ∅
        context (Yields _ context) :=
      confined_eval (.inl (standsIn_root form)) held
    have begins : (evalFormsFrom now last position (form :: rest)).run.run context =
        (Run.formStart (((eval form .root (.form position :: now) >>= fun value =>
          evalFormsFrom now value (position + 1) rest).run.run context)) :
            Run (Result × Context)) :=
      rfl
    rw [begins, Run.Plays, Action.run_bind]
    refine Run.Confined.plays here confined ?_
    rintro w' ⟨result, context'⟩ ends
    cases result with
    | error e => trivial
    | ok value =>
      obtain ⟨rfl, -⟩ := ends value rfl
      have later := @ih w' value (done ++ [form]) (position + 1)
      rwa [List.append_assoc, List.singleton_append, List.length_append] at later

theorem plays_evalSource {source : String} (read : readForms source = .ok forms) (now : Moment) :
    ((evalSource now source).start []).Plays forms 0 ∅ := by
  have data : ∀ binding ∈ (⟨[], 0⟩ : Context).locals, binding.2.ClosureFree :=
    fun binding mem => absurd mem List.not_mem_nil
  rw [evalSource, read]
  rw [← List.nil_append forms]
  exact plays_evalFormsFrom data

end Stepper.Eval
