/-
  Values that are injected at a breakpoint.

  A `Patch` says what is to stand at a place of a top-level form: a quoted form
  instead of a tagged one.  `Patch.onForm` puts it there, but not into quoted
  data and not in the place of the vector of a `let` or a `fn`;
  `Patch.onValue` puts it into the bodies of functions.  To go on with the data
  whenever the breakpoint is reached is to evaluate the form with the patch
  (`patched_of_injected`).
-/
import Stepper.Proofs.Eval.Answering
import Stepper.Proofs.Eval.Lexical
import Stepper.Proofs.Eval.Tracking

namespace Stepper.Eval

open Stepper.Syntax (Form)

/-- Data for a place, and how many of the tags there are to stay. -/
structure Patch where
  place : Coordinate
  data : Form
  keep : Nat

namespace Patch

/-- The form that evaluates to the data. -/
def literal (p : Patch) : Form := .list [.symbol "quote", p.data]

/-- What stands in place of a tagged form: one of the tags around it, and all
    that it is around, gives way to the data. -/
def put (p : Patch) : Nat → Form → Form
  | keep + 1, .tagged (.tagged form) => .tagged (p.put keep (.tagged form))
  | _, _ => p.literal

end Patch

/-- Whether the operand after the name of the special form is a vector of names. -/
def Special.takesVector : Special → Bool
  | .binding | .function => true
  | _ => false

namespace Patch

mutual
/-- The patch in a form that is at the given place.  Quoted forms stay as they
    are. -/
def onForm (p : Patch) (place : Coordinate) : Form → Form
  | .tagged form =>
    if place = p.place then p.put p.keep (.tagged form) else .tagged (p.onForm place form)
  | .list items =>
    match special? (.list items) with
    | some .quote => .list items
    | special => .list (p.onItems place (special.any Special.takesVector) 0 items)
  | .vector items => .vector (p.onItems place false 0 items)
  | form => form

/-- The patch in the vector of a `let` or a `fn`.  The tags around it stay. -/
def onVector (p : Patch) (place : Coordinate) : Form → Form
  | .tagged form => .tagged (p.onVector place form)
  | .vector items => .vector (p.onItems place false 0 items)
  | form => form

/-- The patch in items from a position on; the one at the position 1 may be the
    vector of a `let` or a `fn`. -/
def onItems (p : Patch) (place : Coordinate) (vector : Bool) : Nat → List Form → List Form
  | _, [] => []
  | position, form :: forms =>
    (if vector && position == 1 && form.vector?.isSome then p.onVector (place.child position) form
      else p.onForm (place.child position) form) :: p.onItems place vector (position + 1) forms
end

mutual
/-- The patch in the bodies of the functions in a value. -/
def onValue (p : Patch) : Value → Value
  | .list items => .list (p.onValues items)
  | .vector items => .vector (p.onValues items)
  | .closure id params body captured place =>
    .closure id params (p.onItems place false 2 body) (p.onBindings captured) place
  | value => value

/-- The patch in some values. -/
def onValues (p : Patch) : List Value → List Value
  | [] => []
  | value :: values => p.onValue value :: p.onValues values

/-- The patch in some bindings. -/
def onBindings (p : Patch) : List (String × Value) → List (String × Value)
  | [] => []
  | binding :: bindings => p.onBinding binding :: p.onBindings bindings

/-- The patch in what a name stands for. -/
def onBinding (p : Patch) : String × Value → String × Value
  | (name, value) => (name, p.onValue value)
end

variable (p : Patch) {place : Coordinate} {vector : Bool} {position : Nat}

theorem onValues_eq_map (values : List Value) : p.onValues values = values.map p.onValue := by
  induction values with
  | nil => rfl
  | cons value values ih => rw [onValues, List.map_cons, ih]

theorem onBindings_eq_map (bindings : List Binding) :
    p.onBindings bindings = bindings.map p.onBinding := by
  induction bindings with
  | nil => rfl
  | cons binding bindings ih => rw [onBindings, List.map_cons, ih]

/-! ## Names and vectors -/

theorem symbol?_put (keep : Nat) (form : Form) : (p.put keep form).symbol? = none := by
  fun_cases put p keep form <;> rfl

theorem vector?_put (keep : Nat) (form : Form) : (p.put keep form).vector? = none := by
  fun_induction put p keep form with
  | case1 keep form ih => exact ih
  | case2 => rfl

theorem symbol?_onForm (form : Form) : (p.onForm place form).symbol? = form.symbol? := by
  cases form with
  | tagged form =>
    rw [onForm]
    split
    · exact p.symbol?_put ..
    · rfl
  | list items =>
    rw [onForm]
    split <;> rfl
  | nil | bool | int | float | str | symbol | vector => rfl

theorem vector?_onForm {form : Form} (none : form.vector? = none) :
    (p.onForm place form).vector? = .none := by
  fun_induction Form.untagged form with
  | case1 form ih =>
    rw [onForm]
    split
    · exact p.vector?_put ..
    · exact ih none
  | case2 form other =>
    cases form with
    | tagged inner => exact absurd rfl (other inner)
    | list items =>
      rw [onForm]
      split <;> rfl
    | vector items => cases none
    | nil | bool | int | float | str | symbol => rfl

theorem vector?_onVector {form : Form} {items : List Form} (known : form.vector? = some items) :
    (p.onVector place form).vector? = some (p.onItems place false 0 items) := by
  fun_induction Form.untagged form with
  | case1 form ih =>
    rw [onVector]
    exact ih known
  | case2 form other =>
    cases form with
    | tagged inner => exact absurd rfl (other inner)
    | vector items =>
      cases known
      rw [onVector]
      rfl
    | _ => cases known

/-- Only at the position 1 it matters whether there may be a vector. -/
theorem onItems_of_two_le (le : 2 ≤ position) (forms : List Form) :
    p.onItems place vector position forms = p.onItems place false position forms := by
  induction forms generalizing position with
  | nil => rw [onItems, onItems]
  | cons form forms ih =>
    have other : (position == 1) = false := beq_false_of_ne (by omega)
    simp only [onItems, other, Bool.and_false, Bool.false_and, ih (Nat.le_succ_of_le le)]

mutual
/-- Where the place of the patch is not inside, nothing changes. -/
theorem onForm_of_aside : ∀ {place : Coordinate} (form : Form),
    ¬place.path <+: p.place.path → p.onForm place form = form
  | place, .tagged form, aside => by
    have elsewhere : place ≠ p.place := fun same => aside (same ▸ List.prefix_rfl)
    rw [onForm, if_neg elsewhere, onForm_of_aside form aside]
  | place, .list items, aside => by
    rw [onForm]
    split
    · rfl
    · rw [onItems_of_aside _ _ items aside]
  | place, .vector items, aside => by rw [onForm, onItems_of_aside _ _ items aside]
  | _, .nil, _ | _, .bool _, _ | _, .int _, _ | _, .float _, _ | _, .str _, _ | _, .symbol _, _ => rfl

theorem onVector_of_aside : ∀ {place : Coordinate} (form : Form),
    ¬place.path <+: p.place.path → p.onVector place form = form
  | place, .tagged form, aside => by rw [onVector, onVector_of_aside form aside]
  | place, .vector items, aside => by rw [onVector, onItems_of_aside _ _ items aside]
  | _, .nil, _ | _, .bool _, _ | _, .int _, _ | _, .float _, _ | _, .str _, _ | _, .symbol _, _
  | _, .list _, _ => rfl

theorem onItems_of_aside : ∀ {place : Coordinate} (vector : Bool) (position : Nat)
    (forms : List Form), ¬place.path <+: p.place.path →
      p.onItems place vector position forms = forms
  | _, _, _, [], _ => rfl
  | place, vector, position, form :: forms, aside => by
    have aside' : ¬(place.child position).path <+: p.place.path :=
      fun inside => aside ((List.prefix_append ..).trans inside)
    rw [onItems, onVector_of_aside form aside', onForm_of_aside form aside', ite_self,
      onItems_of_aside vector (position + 1) forms aside]
end

/-! ## What goes with what -/

/-- What goes with what if the second program is the first one with the patch. -/
def correspondence : Correspondence where
  form place form form' := form' = p.onForm place form
  value value value' := value' = p.onValue value
  scope locals locals' := locals' = p.onBindings locals
  error _ _ := True

variable {p}

theorem rows_onItems (forms : List Form) :
    p.correspondence.Rows place position forms (p.onItems place false position forms) := by
  induction forms generalizing position with
  | nil => exact .nil
  | cons form forms ih => exact .cons rfl ih

theorem eq_onItems_of_rows {forms forms' : List Form}
    (rows : p.correspondence.Rows place position forms forms') :
    forms' = p.onItems place false position forms := by
  induction rows with
  | nil => rfl
  | cons first _ ih =>
    rw [first, ih]
    rfl

theorem pairs_onItems : ∀ (position : Nat) (pairs : List Form),
    p.correspondence.Pairs place position pairs (p.onItems place false position pairs)
  | _, [] => .nil
  | _, [form] => .single form _
  | position, name :: _ :: rest =>
    .pair (p.symbol?_onForm name).symm rfl (pairs_onItems (position + 2) rest)

theorem params_onItems (params : List Form) :
    List.Forall₂ (fun param param' : Form => param.symbol? = param'.symbol?) params
      (p.onItems place false position params) := by
  induction params generalizing position with
  | nil => exact .nil
  | cons param params ih => exact .cons (p.symbol?_onForm param).symm ih

theorem forall₂_value_iff {values values' : List Value} :
    List.Forall₂ p.correspondence.value values values' ↔ values' = p.onValues values := by
  rw [onValues_eq_map]
  induction values generalizing values' with
  | nil => simp
  | cons value values ih =>
    cases values' with
    | nil => simp
    | cons value' values' =>
      rw [List.forall₂_cons, ih, List.map_cons, List.cons.injEq]
      exact Iff.rfl

theorem congruence_value : Value.Congruence p.correspondence.value where
  outline := by
    rintro v _ rfl
    cases v with
    | nil => exact .nil
    | bool b => exact .bool b
    | int n => exact .int n
    | float x => exact .float x
    | str s => exact .str s
    | symbol name => exact .symbol name
    | list items => exact .list (forall₂_value_iff.2 rfl)
    | vector items => exact .vector (forall₂_value_iff.2 rfl)
    | builtin f => exact .builtin f
    | closure => exact .closure ..
  nil := rfl
  bool _ := rfl
  int _ := rfl
  float _ := rfl
  str _ := rfl
  symbol _ := rfl
  list each := congrArg Value.list (forall₂_value_iff.1 each)
  vector each := congrArg Value.vector (forall₂_value_iff.1 each)
  builtin _ := rfl

theorem lookup?_onBindings (name : String) (locals : List Binding) :
    lookup? name (p.onBindings locals) = (lookup? name locals).map p.onValue := by
  have named : ((·.1 == name) ∘ p.onBinding) = fun binding : Binding => binding.1 == name := by
    funext ⟨_, _⟩
    rfl
  have valued : (·.2) ∘ p.onBinding = p.onValue ∘ fun binding : Binding => binding.2 := by
    funext ⟨_, _⟩
    rfl
  rw [lookup?, lookup?, onBindings_eq_map, ← List.map_reverse, List.find?_map, named, Option.map_map,
    Option.map_map, valued]

theorem lawful_correspondence : p.correspondence.Lawful where
  values := congruence_value
  lookup := by
    rintro locals _ rfl name
    rw [lookup?_onBindings]
    cases lookup? name locals with
    | none => exact .none
    | some value => exact .some rfl
  push := by
    rintro locals _ value _ name rfl rfl
    change _ = p.onBindings (locals ++ [(name, value)])
    rw [onBindings_eq_map, onBindings_eq_map, List.map_append]
    rfl
  function := by
    rintro id params body body' captured _ place rows rfl
    rw [eq_onItems_of_rows rows]
    rfl
  callee := by
    intro id params body body' captured captured' place same
    cases same
    exact ⟨rows_onItems body, rfl⟩
  error _ := trivial

theorem operands_onItems {special : Option Special} (unquoted : special ≠ some .quote)
    (operands : List Form) :
    p.correspondence.Operands place special operands
      (p.onItems place (special.any Special.takesVector) 1 operands) := by
  have tails (vector : Bool) : p.correspondence.Rows place 2 operands.tail
      (p.onItems place vector 1 operands).tail := by
    cases operands with
    | nil => exact .nil
    | cons first rest =>
      rw [onItems, List.tail_cons, p.onItems_of_two_le (Nat.le_refl 2)]
      exact rows_onItems rest
  -- the vector is patched inside, and remains one
  have vectors {R : List Form → List Form → Prop}
      (inside : ∀ items, R items (p.onItems (place.child 1) false 0 items)) :
      Option.Rel R (operands.head?.bind Form.vector?)
        ((p.onItems place true 1 operands).head?.bind Form.vector?) := by
    cases operands with
    | nil => exact .none
    | cons first rest =>
      simp only [onItems, List.head?_cons, Option.bind_some]
      cases known : first.vector? with
      | none =>
        simp only [Option.isSome_none, Bool.and_false, Bool.false_eq_true, if_false]
        rw [p.vector?_onForm known]
        exact .none
      | some items =>
        simp only [Option.isSome_some, Bool.and_true, beq_self_eq_true, if_true]
        rw [p.vector?_onVector known]
        exact .some (inside items)
  match special with
  | none | some .body | some .branch => exact rows_onItems operands
  | some .quote => exact absurd rfl unquoted
  | some .binding => exact ⟨vectors (pairs_onItems 0), tails true⟩
  | some .function => exact ⟨vectors params_onItems, tails true⟩

/-- A form without a tag around it is made like the form with the patch. -/
theorem layer_onForm {form : Form} (untagged : ∀ inner, form ≠ .tagged inner) :
    p.correspondence.Layer place form (p.onForm place form) := by
  cases form with
  | nil => exact .nil
  | bool b => exact .bool b
  | int n => exact .int n
  | float x => exact .float x
  | str s => exact .str s
  | symbol name => exact .symbol name
  | tagged inner => exact absurd rfl (untagged inner)
  | vector items => exact .vector (rows_onItems items)
  | list items =>
    cases items with
    | nil => exact .empty
    | cons head operands =>
      have special : special? (.list (head :: operands)) = head.symbol?.bind Special.named? := rfl
      rw [onForm]
      split
      · rename_i quoted
        rw [special] at quoted
        refine .list rfl (fun none => ?_) ?_
        · rw [quoted] at none
          cases none
        · rw [quoted]
          exact rfl
      · rename_i unquoted
        have first (vector : Bool) : p.onItems place vector 0 (head :: operands) =
            p.onForm (place.child 0) head :: p.onItems place vector 1 operands := by
          simp [onItems]
        rw [special] at unquoted ⊢
        rw [first]
        refine .list (by rw [symbol?_onForm]) (fun _ => ⟨rfl, fun _ _ _ => trivial⟩) ?_
        exact operands_onItems unquoted operands

/-! ## Evaluation -/

variable (p)

/-- The value that is injected. -/
def value (p : Patch) : Value := .ofForm p.data

/-- The data is injected whenever the place is reached. -/
def answers (p : Patch) : Answers :=
  ⟨false, fun site value => if site.place = p.place then p.value else value⟩

/-- The first action is answered so that the data is injected, and nobody
    watches the second one.  Only values are compared. -/
abbrev Injects {α β : Type} (context context' : Context) (body : Action α) (body' : Action β)
    (post : α → Context → β → Context → Prop) : Prop :=
  Action.Follows p.answers (.unwatched false) (fun _ => True) p.correspondence.error context context'
    body body' post

theorem compositional₂_injects :
    Action.Compositional₂ p.correspondence.error p.Injects :=
  Action.compositional₂_follows rfl trivial

theorem value_answers (now : Moment) (snapshot : Snapshot) (value : Value) :
    p.answers.value ⟨p.place, now, snapshot⟩ value = p.value := if_pos rfl

theorem value_answers_of_ne {site : Site} (elsewhere : site.place ≠ p.place) (value : Value) :
    p.answers.value site value = value := if_neg elsewhere

variable {p} {room : Nat} {now : Moment} {context context' c : Context} {form : Form} {v : Value}

/-- The form that evaluates to the data does so. -/
theorem answered_literal (room : Nat) (now : Moment) (context : Context) :
    (evalForm (room + 1) p.literal place now).answered (.unwatched false) context =
      (.ok p.value, context) := rfl

/-- Below a tag at the place, the first evaluation ends well if it does there,
    and goes on with the data. -/
theorem of_answered_tagged
    (below : ∀ r < room, p.correspondence.Carries p.Injects (evalForm r) (evalForm r))
    (scopes : p.correspondence.scope context.locals context'.locals)
    (ends : (evalForm room (.tagged form) p.place now).answered p.answers context = (.ok v, c)) :
    ∃ r u, room = r + 1 ∧ v = p.value ∧ c = context ∧
      (evalForm r form p.place now).answered p.answers { context with depth := context.depth + 1 } =
        (.ok u, { context with depth := context.depth + 1 }) := by
  cases room with
  | zero => cases ends
  | succ r =>
    have inner : p.Injects { context with depth := context.depth + 1 }
        { context' with depth := context'.depth + 1 } (evalForm r form p.place now) _ _ :=
      below r (Nat.lt_succ_self r) p.place now rfl scopes
    unfold Injects Action.Follows at inner
    rw [evalForm, Action.answered_nested, evalInner, Action.answered_bind] at ends
    generalize first : (evalForm r form p.place now).answered p.answers
      { context with depth := context.depth + 1 } = left at inner ends
    generalize Action.answered (.unwatched false) _ _ = right at inner
    cases inner with
    | error | excused => cases ends
    | @ok u _ _ _ returns =>
      obtain ⟨rfl, -, -⟩ := returns
      simp only [Action.answered_breakpoint, value_answers] at ends
      cases ends
      exact ⟨r, u, rfl, rfl, rfl, first⟩

/-- Whichever of the tags at the place gives way: if the first evaluation ends
    well there, it is with the data, and so does the second one. -/
theorem answered_put
    (below : ∀ r < room, p.correspondence.Carries p.Injects (evalForm r) (evalForm r))
    (scopes : p.correspondence.scope context.locals context'.locals) (keep : Nat)
    (ends : (evalForm room (.tagged form) p.place now).answered p.answers context = (.ok v, c)) :
    v = p.value ∧ c = context ∧
      (evalForm room (p.put keep (.tagged form)) p.place now).answered (.unwatched false) context' =
        (.ok p.value, context') := by
  induction keep generalizing room form context context' v c with
  | zero =>
    obtain ⟨r, -, rfl, same, kept, -⟩ := of_answered_tagged below scopes ends
    exact ⟨same, kept, answered_literal r now context'⟩
  | succ keep ih =>
    obtain ⟨r, u, rfl, same, kept, inner⟩ := of_answered_tagged below scopes ends
    refine ⟨same, kept, ?_⟩
    cases form with
    | tagged form =>
      let deeper (c : Context) : Context := { c with depth := c.depth + 1 }
      have below' : ∀ r' < r, p.correspondence.Carries p.Injects (evalForm r') (evalForm r') :=
        fun r' less => below r' (Nat.lt_succ_of_lt less)
      have scopes' : p.correspondence.scope (deeper context).locals (deeper context').locals := scopes
      obtain ⟨-, -, second⟩ := ih below' scopes' inner
      rw [put, evalForm, Action.answered_nested, evalInner, Action.answered_bind_breakpoint, second]
      rfl
    | _ => exact answered_literal r now context'

theorem carries_evalForm (room : Nat) :
    p.correspondence.Carries p.Injects (evalForm room) (evalForm room) := by
  induction room using Nat.strongRecOn with
  | _ room below =>
    rintro form _ context context' place now rfl scopes
    by_cases tagged : ∃ inner, form = .tagged inner
    · obtain ⟨inner, rfl⟩ := tagged
      by_cases here : place = p.place
      · subst here
        rw [onForm, if_pos rfl]
        unfold Injects Action.Follows
        generalize left : (evalForm room (.tagged inner) p.place now).answered p.answers context = r
        obtain ⟨e | v, c⟩ := r
        · exact .excused trivial _ _
        · obtain ⟨rfl, rfl, second⟩ := answered_put below scopes p.keep left
          rw [second]
          exact .ok ⟨rfl, rfl, congruence_value.ofForm p.data⟩
      · rw [onForm, if_neg here]
        cases room with
        | zero => exact Action.follows_excused trivial
        | succ room =>
          refine p.compositional₂_injects.nested (Action.Follows.bind (Action.Follows.mono
            (below room (Nat.lt_succ_self room) place now rfl scopes) ?_))
          rintro value c value' c' ⟨rfl, rfl, related⟩
          unfold Action.Follows
          rw [Action.answered_breakpoint, Action.answered_breakpoint, p.value_answers_of_ne here]
          exact .ok ⟨rfl, rfl, related⟩
    · cases room with
      | zero => exact Action.follows_excused trivial
      | succ room =>
        have layer : p.correspondence.Layer place form (p.onForm place form) :=
          layer_onForm fun inner same => tagged ⟨inner, same⟩
        refine p.compositional₂_injects.nested (Action.Follows.mono
          (lawful_correspondence.evalInner p.compositional₂_injects
            (below room (Nat.lt_succ_self room)) layer scopes) ?_)
        rintro value c value' c' ⟨rfl, rfl, related⟩
        exact ⟨rfl, rfl, related⟩

/-! ## Programs -/

theorem onValue_of_closureFree {value : Value} (free : value.ClosureFree) :
    p.onValue value = value := by
  induction free with
  | nil | bool | int | float | str | symbol | builtin => rfl
  | @list items _ ih | @vector items _ ih =>
    rw [onValue, onValues_eq_map, List.map_congr_left ih, List.map_id']
  | closure impossible => exact impossible.elim

theorem onBindings_of_closureFree {locals : List Binding}
    (free : ∀ binding ∈ locals, binding.2.ClosureFree) : p.onBindings locals = locals := by
  rw [onBindings_eq_map]
  refine (List.map_congr_left fun binding mem => ?_).trans (List.map_id' locals)
  obtain ⟨name, value⟩ := binding
  rw [onBinding, onValue_of_closureFree (free _ mem)]

end Patch

variable {σ τ : Type} {handler : Run.Handler σ} {handler' : Run.Handler τ}

/-- To inject a value is to substitute it.  If a form ends with a value when the
    data is what it goes on with whenever a place is reached, then the form that
    has been patched with the data at this place ends with the same value, but
    for the patch in the bodies of functions. -/
theorem patched_of_injected (p : Patch)
    (injects : ∀ site value s, (handler.breakpoint site value s).1 =
      .ok (if site.place = p.place then .ofForm p.data else value))
    (unwatched : handler'.Gives (.unwatched false)) (now : Moment) (form : Form)
    {locals : List Binding} (free : ∀ binding ∈ locals, binding.2.ClosureFree) {s : σ} {s' : τ}
    {v : Value} (ends : (((evalForms now [form]).start locals).under handler s).1.1 = .ok v) :
    (((evalForms now [p.onForm .root form]).start locals).under handler' s').1.1 =
      .ok (p.onValue v) := by
  have final : ((evalForms now [form]).start locals).Final fun e r => r.1 = .error e :=
    Action.compositional_final.evalForms now [form] ⟨locals, 0⟩
  have scopes : p.correspondence.scope locals locals :=
    (Patch.onBindings_of_closureFree free).symm
  rw [Run.under_eq_answered unwatched]
  rcases final.under_eq_answered injects s with cancelled | same
  · rw [cancelled] at ends
    cases ends
  · rw [same] at ends
    obtain ⟨e, -, fails⟩ | ⟨e, e', -, fails, -⟩ | ⟨_, _, rfl, returns, result⟩ :=
      results_evalForms now Patch.carries_evalForm (.cons rfl .nil) scopes rfl
    · cases ends.symm.trans fails
    · cases ends.symm.trans fails
    · cases ends.symm.trans returns
      exact result

/-- Injects the data of a patch and lets other values pass. -/
def Patch.injecting (p : Patch) : Run.Handler Unit where
  tripped _ := (false, ())
  formStart _ := ()
  breakpoint site value _ := (.ok (if site.place = p.place then .ofForm p.data else value), ())

/-- A function that is called and returned. -/
def calling (body : Form) : Form :=
  .list [.symbol "let", .vector [.symbol "f", .list [.symbol "fn", .vector [.symbol "x"], body]],
    .list [.symbol "vector", .list [.symbol "f", .int 1], .symbol "f"]]

/-- Another number in place of the sum that the function gives. -/
def replacing : Patch := ⟨⟨[1, 1, 2]⟩, .int 42, 0⟩

theorem patched_of_injected_in_body :
    (((evalForms [] [calling (.list [.symbol "quote", .int 42])]).start []).under
        (Run.Handler.unwatched false) ()).1.1 =
      .ok (.vector [.int 42,
        .closure [.binding 1, .form 0] ["x"] [.list [.symbol "quote", .int 42]] [] ⟨[1, 1]⟩]) := by
  have ends : (((evalForms [] [calling (.tagged (.list [.symbol "+", .symbol "x", .int 1]))]).start
      []).under replacing.injecting ()).1.1 = .ok (.vector [.int 42, .closure [.binding 1, .form 0]
        ["x"] [.tagged (.list [.symbol "+", .symbol "x", .int 1])] [] ⟨[1, 1]⟩]) := rfl
  have patched : replacing.onForm .root
      (calling (.tagged (.list [.symbol "+", .symbol "x", .int 1]))) =
        calling (.list [.symbol "quote", .int 42]) := rfl
  have unwatched : (Run.Handler.unwatched false).Gives (.unwatched false) :=
    ⟨fun _ => rfl, fun _ _ _ => rfl⟩
  rw [← patched]
  exact patched_of_injected replacing (fun _ _ _ => rfl) unwatched [] _
    (fun _ mem => absurd mem List.not_mem_nil) ends

end Stepper.Eval
