/-
  Breakpoint tags.

  `Form.erased` is a form without its tags, `Form.clear` says that a form has
  none where the evaluator looks at the form itself: around the head of a
  list, the name in a pair of a `let` or a parameter of a `fn`.  All other
  tags are transparent (`concur_erased`): unless it is nested too deeply, a
  program ends as it does without them, for everyone who lets values pass and
  finds the token in the same state at each check.
-/
import Stepper.Proofs.Eval.Interchange
import Stepper.Proofs.Eval.Scope

namespace Stepper.Syntax.Form

mutual
/-- The form without the tags in it. -/
def erased : Form → Form
  | tagged form => form.erased
  | list items => list (erasedAll items)
  | vector items => vector (erasedAll items)
  | nil => nil
  | bool b => bool b
  | int n => int n
  | float x => float x
  | str s => str s
  | symbol name => symbol name

/-- Some forms without the tags in them. -/
def erasedAll : List Form → List Form
  | [] => []
  | form :: forms => form.erased :: erasedAll forms
end

/-- There is no tag directly around the form. -/
def bare : Form → Bool
  | tagged _ => false
  | _ => true

/-- No name in the binding vector has a tag around it. -/
def bareNames : List Form → Bool
  | name :: _ :: rest => name.bare && bareNames rest
  | _ => true

/-- What the form takes for names has no tags around it. -/
def bindsBare (form : Form) : Bool :=
  match Eval.special? form, form.items[1]?.bind vector? with
  | some .binding, some pairs => bareNames pairs
  | some .function, some params => params.all bare
  | _, _ => true

mutual
/-- No tag in the form is around the head of a list, a name that a `let`
    binds or a parameter; quoted forms may have them anywhere. -/
def clear : Form → Bool
  | tagged form => form.clear
  | list items =>
    Eval.special? (list items) = some .quote ||
      items.head?.all bare && bindsBare (list items) && clearAll items
  | vector items => clearAll items
  | _ => true

/-- The same for some forms. -/
def clearAll : List Form → Bool
  | [] => true
  | form :: forms => form.clear && clearAll forms
end

mutual
/-- What is erased are all tags. -/
theorem tagCount_erased : ∀ form : Form, form.erased.tagCount = 0
  | tagged form => by rw [erased, tagCount_erased form]
  | list items => by rw [erased, tagCount, tagCountAll_erasedAll items]
  | vector items => by rw [erased, tagCount, tagCountAll_erasedAll items]
  | nil | bool _ | int _ | float _ | str _ | symbol _ => rfl

theorem tagCountAll_erasedAll : ∀ forms : List Form, tagCountAll (erasedAll forms) = 0
  | [] => rfl
  | form :: forms => by
    rw [erasedAll, tagCountAll, tagCount_erased form, tagCountAll_erasedAll forms]
end

theorem vector?_erased (form : Form) : form.erased.vector? = form.vector?.map erasedAll := by
  induction form using Form.untagged.induct with
  | case1 form ih => exact ih
  | case2 form other =>
    cases form with
    | tagged inner => exact absurd rfl (other inner)
    | _ => rfl

theorem symbol?_erased {form : Form} (h : form.bare = true) :
    form.erased.symbol? = form.symbol? := by
  cases form with
  | tagged inner => cases h
  | _ => rfl

theorem clearAll_of_vector? {form : Form} (h : form.clear = true) {items : List Form}
    (known : form.vector? = some items) : clearAll items = true := by
  induction form using Form.untagged.induct with
  | case1 form ih => exact ih h known
  | case2 form other =>
    cases form with
    | tagged inner => exact absurd rfl (other inner)
    | vector items =>
      cases known
      exact h
    | _ => cases known

end Stepper.Syntax.Form

namespace Stepper.Eval

open Stepper.Syntax (Form)
open Stepper.Syntax.Form (erasedAll clearAll bareNames)

mutual
/-- Data has no tags. -/
theorem Value.ofForm_erased : ∀ form : Form, ofForm form.erased = ofForm form
  | .nil | .bool _ | .int _ | .float _ | .str _ | .symbol _ => rfl
  | .list items => congrArg Value.list (ofForms_erasedAll items)
  | .vector items => congrArg Value.vector (ofForms_erasedAll items)
  | .tagged form => ofForm_erased form

theorem Value.ofForms_erasedAll : ∀ forms : List Form, ofForms (erasedAll forms) = ofForms forms
  | [] => rfl
  | form :: forms => by
    rw [erasedAll, ofForms, ofForms, ofForm_erased form, ofForms_erasedAll forms]
end

/-- Functions may differ in that one has been made without the tags that are
    transparent. -/
def erasing : Leeway Nat where
  form form form' := form' = form ∨ form.clear = true ∧ form' = form.erased
  entry position locals := locals[position]?

section

variable {forms : List Form}

theorem forall₂_erasedAll (clear : clearAll forms = true) :
    List.Forall₂ erasing.form forms (erasedAll forms) := by
  induction forms with
  | nil => exact .nil
  | cons form forms ih =>
    rw [clearAll, Bool.and_eq_true] at clear
    exact .cons (.inr ⟨clear.1, rfl⟩) (ih clear.2)

theorem pairs_erasedAll (bare : bareNames forms = true) (clear : clearAll forms = true) :
    Pairs erasing.form forms (erasedAll forms) := by
  fun_induction bareNames forms with
  | case1 name form rest ih =>
    simp only [clearAll, Bool.and_eq_true] at bare clear
    exact .pair (Form.symbol?_erased bare.1).symm (.inr ⟨clear.2.1, rfl⟩) (ih bare.2 clear.2.2)
  | case2 pairs short =>
    match pairs, short with
    | [], _ => exact .nil
    | [form], _ => exact .single form form.erased
    | name :: form :: rest, short => exact absurd rfl (short name form rest)

theorem params_erasedAll (bare : forms.all Form.bare = true) :
    List.Forall₂ (fun param param' : Form => param.symbol? = param'.symbol?) forms
      (erasedAll forms) := by
  induction forms with
  | nil => exact .nil
  | cons param params ih =>
    rw [List.all_cons, Bool.and_eq_true] at bare
    exact .cons (Form.symbol?_erased bare.1).symm (ih bare.2)

/-- The vector at the head of the operands, and the same without tags. -/
theorem rel_vector?_erasedAll {R : List Form → List Form → Prop}
    (h : ∀ items, forms.head?.bind Form.vector? = some items → R items (erasedAll items)) :
    Option.Rel R (forms.head?.bind Form.vector?) ((erasedAll forms).head?.bind Form.vector?) := by
  cases forms with
  | nil => exact .none
  | cons form forms =>
    simp only [erasedAll, List.head?_cons, Option.bind_some] at h ⊢
    rw [Form.vector?_erased]
    cases known : form.vector? with
    | none => exact .none
    | some items => exact .some (h items known)

theorem operands_erasedAll {head : Form}
    (bare : (Form.list (head :: forms)).bindsBare = true) (clear : clearAll forms = true) :
    Operands erasing.form (head.symbol?.bind Special.named?) forms (erasedAll forms) := by
  have each := forall₂_erasedAll clear
  have special : special? (.list (head :: forms)) = head.symbol?.bind Special.named? := rfl
  have vector : (Form.list (head :: forms)).items[1]?.bind Form.vector? =
      forms.head?.bind Form.vector? := by
    rw [List.head?_eq_getElem?]
    rfl
  have tail : List.Forall₂ erasing.form forms.tail (erasedAll forms).tail := by
    cases each with
    | nil => exact .nil
    | cons _ rest => exact rest
  rw [Form.bindsBare, special, vector] at bare
  cases named : head.symbol?.bind Special.named? with
  | none => exact each
  | some special =>
    rw [named] at bare
    cases special with
    | quote => exact (Value.ofForms_erasedAll forms).symm
    | body | branch => exact each
    | binding =>
      refine ⟨rel_vector?_erasedAll fun pairs known => ?_, tail⟩
      rw [known] at bare
      refine pairs_erasedAll bare ?_
      obtain ⟨form, first, known⟩ := Option.bind_eq_some_iff.1 known
      obtain ⟨rest, rfl⟩ := List.head?_eq_some_iff.1 first
      rw [clearAll, Bool.and_eq_true] at clear
      exact Form.clearAll_of_vector? clear.1 known
    | function =>
      refine ⟨rel_vector?_erasedAll fun params known => ?_, tail⟩
      rw [known] at bare
      exact params_erasedAll bare

end

/-- A form that is clear is made like the same form without tags, but for a
    tag around it. -/
theorem layer_erased {form : Form} (clear : form.clear = true) :
    Layer erasing.form form form.erased ∨
      ∃ inner, form = .tagged inner ∧ erasing.form inner form.erased := by
  cases form with
  | nil => exact .inl .nil
  | bool b => exact .inl (.bool b)
  | int n => exact .inl (.int n)
  | float x => exact .inl (.float x)
  | str s => exact .inl (.str s)
  | symbol name => exact .inl (.symbol name)
  | tagged inner => exact .inr ⟨inner, rfl, .inr ⟨clear, rfl⟩⟩
  | vector items => exact .inl (.vector (forall₂_erasedAll clear))
  | list items =>
    left
    cases items with
    | nil => exact .empty
    | cons head operands =>
      rw [Form.clear, Bool.or_eq_true, decide_eq_true_eq] at clear
      rcases clear with quoted | clear
      · have named : head.symbol?.bind Special.named? = some .quote := quoted
        obtain ⟨name, symbol, -⟩ := Option.bind_eq_some_iff.1 named
        have known : head = .symbol name := by
          cases head with
          | symbol => exact congrArg Form.symbol (Option.some.inj symbol)
          | _ => cases symbol
        subst known
        refine .list rfl (.inl rfl) ?_
        rw [named]
        exact (Value.ofForms_erasedAll operands).symm
      · simp only [Bool.and_eq_true, clearAll] at clear
        obtain ⟨⟨bare, binds⟩, head', operands'⟩ := clear
        exact .list (Form.symbol?_erased (by simpa using bare)).symm (.inr ⟨head', rfl⟩)
          (operands_erasedAll binds operands')

instance : Std.Refl erasing.form := ⟨fun _ => .inl rfl⟩

theorem sound_erasing : erasing.Sound where
  same := refl
  layer := by
    rintro form form' (rfl | ⟨clear, rfl⟩)
    · exact .inl (layer_refl _)
    · exact layer_erased clear
  mem := List.mem_of_getElem?
  lookup := Leeway.lookup_of_positional fun _ _ => rfl
  push := Leeway.push_of_positional fun _ _ => rfl

/-! ## Programs -/

variable {σ τ : Type} {handler : Run.Handler σ} {handler' : Run.Handler τ}

/-- Tags are transparent where nothing but evaluation looks at what they mark.
    A program that is `clear` and the same program without tags have the same
    result, up to tags in the bodies of functions, if breakpoints let values
    pass and both programs find the token in the same state at each check. -/
theorem concur_erased (passes : handler.LetsPass) (passes' : handler'.LetsPass)
    {forms : List Form} (clear : ∀ form ∈ forms, form.clear = true) (now : Moment)
    (locals : List Binding) {token : Nat → Bool} {s : σ} {s' : τ}
    (heeds : ((evalForms now forms).start locals).Heeds handler token s)
    (heeds' : ((evalForms now (forms.map Form.erased)).start locals).Heeds handler' token s')
    (shallow : (((evalForms now forms).start locals).under handler s).1.1 ≠
      .error (.depthExceeded maxDepth)) :
    Concur (Value.Alike erasing) (((evalForms now forms).start locals).under handler s).1.1
      (((evalForms now (forms.map Form.erased)).start locals).under handler' s').1.1 := by
  have each : List.Forall₂ erasing.form forms (forms.map Form.erased) :=
    List.forall₂_map_right_iff.2 (List.forall₂_same.2 fun form mem => .inr ⟨clear form mem, rfl⟩)
  have tracks : Action.Tracks ⟨locals, 0⟩ ⟨locals, 0⟩ (evalForms now forms)
      (evalForms now (forms.map Form.erased)) (Returns₂ erasing ⟨locals, 0⟩ ⟨locals, 0⟩) :=
    tracks_evalForms sound_erasing each (sound_erasing.scopes fun _ => rfl) (Nat.le_refl 0)
  rcases Run.Tracks.under tracks passes passes' heeds heeds' with spent | ends
  · exact absurd spent shallow
  · exact ends.alike

/-- A recording that does not cancel finds the token as it was all the time. -/
theorem heeds_recording {plan : Plan} (free : plan.cancelAt = none) {α : Type} (r : Run α)
    (recording : Recording) : r.Heeds plan.handler (fun _ => recording.tripped) recording := by
  induction r generalizing recording with
  | done a => trivial
  | poll next ih => exact ⟨rfl, ih _ recording⟩
  | formStart next ih => exact ih { recording with events := .formStart :: recording.events }
  | hit site value next ih =>
    have untripped :
        (plan.handler.breakpoint site value recording).2.tripped = recording.tripped := by
      simp [Plan.handler, free]
    rw [← untripped]
    exact ih _ _

/-- A program with tags around tags, bindings, a vector and the body of a function. -/
def tagged : List Form :=
  [.list [.symbol "let", .tagged (.vector [.symbol "x", .tagged (.tagged (.int 1)),
      .symbol "f", .tagged (.list [.symbol "fn", .vector [], .tagged (.symbol "x")])]),
    .vector [.tagged (.list [.symbol "f"]), .symbol "f"]]]

theorem concur_erased_tagged :
    Concur (Value.Alike erasing)
      (((evalForms [] tagged).start []).under Plan.pass.handler (.start false)).1.1
      (((evalForms [] (tagged.map Form.erased)).start []).under Plan.pass.handler
        (.start false)).1.1 :=
  concur_erased (fun _ _ _ => rfl) (fun _ _ _ => rfl) (by decide) [] []
    (heeds_recording rfl _ _) (heeds_recording rfl _ _) (fun same => by cases same)

/-- A hook that trips the token at the first breakpoint. -/
def cancelling : Plan := ⟨some 1, none, []⟩

/-- A tag before a call. -/
def marked : List Form :=
  [.tagged (.int 1), .list [.symbol "+", .int 1, .int 2]]

/-- Who is told of a breakpoint may cancel the evaluation, and let the value pass. -/
theorem not_concur_erased_cancelling :
    cancelling.handler.LetsPass ∧ (∀ form ∈ marked, form.clear = true) ∧
      (((evalForms [] marked).start []).under cancelling.handler (.start false)).1.1 ≠
        .error (.depthExceeded maxDepth) ∧
      ¬ Concur (Value.Alike erasing)
        (((evalForms [] marked).start []).under cancelling.handler (.start false)).1.1
        (((evalForms [] (marked.map Form.erased)).start []).under cancelling.handler
          (.start false)).1.1 := by
  refine ⟨?_, by decide, ?_, ?_⟩
  · intro site value recording
    simp [Plan.handler, Plan.answer, cancelling]
  · intro same
    cases same
  · intro concur
    cases concur

/-- A tag around the whole program. -/
def enclosed : List Form := [.tagged (.list [.symbol "+", .int 1, .int 2])]

/-- The hook may also trip the token after the last check.  The program without
    tags, which goes on with that token, then finds it tripped at its first check. -/
theorem not_concur_erased_tripped :
    let first := ((evalForms [] enclosed).start []).under cancelling.handler (.start false)
    let second :=
      ((evalForms [] (enclosed.map Form.erased)).start []).under cancelling.handler first.2
    (∀ form ∈ enclosed, form.clear = true) ∧ first.1.1 ≠ .error (.depthExceeded maxDepth) ∧
      ¬ Concur (Value.Alike erasing) first.1.1 second.1.1 := by
  refine ⟨by decide, ?_, ?_⟩
  · intro same
    cases same
  · intro concur
    cases concur

end Stepper.Eval
