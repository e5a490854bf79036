/-
  Tags where names stand.

  The head of a list, the name in a pair of a `let` and a parameter of a `fn`
  are looked at as they are written: with a tag around it a symbol is no name
  there.  A form that `Sheds` to another one loses tags, but no symbol turns
  into the name of a special form, into a name that is bound or into a
  parameter.  Then nobody who does not watch can tell the two, but for the
  wording of an error (`concur_of_sheds`); as for symbols that turn into
  names, see `not_concur_named`.
-/
import Stepper.Proofs.Eval.Answering
import Stepper.Proofs.Eval.Interchange
import Stepper.Proofs.Eval.Scope

namespace Stepper.Eval

open Stepper.Syntax (Form)

/-! ## Forms -/

/-- What stands for names in a binding vector. -/
def pairNames : List Form → List (Option String)
  | name :: _ :: rest => name.symbol? :: pairNames rest
  | _ => []

/-- What stands for names in the vector of a `let` or a `fn`, of which the items
    are given. -/
def binders (items : List Form) : List (Option String) :=
  match special? (.list items), items[1]?.bind Form.vector? with
  | some .binding, some pairs => pairNames pairs
  | some .function, some params => params.map Form.symbol?
  | _, _ => []

/-- The second form is the first one without some tags, and symbols that are
    not under a tag any more are no names of special forms at heads of lists and
    are not bound.  Quoted forms stand for the same data. -/
inductive Sheds : Form → Form → Prop
  | same (form : Form) : Sheds form form
  | tagged {form form'} (h : Sheds form form') : Sheds (.tagged form) (.tagged form')
  | shed {form form'} (h : Sheds form form') : Sheds (.tagged form) form'
  | vector {items items'} (each : List.Forall₂ Sheds items items') :
    Sheds (.vector items) (.vector items')
  | list {items items'} (special : special? (.list items) = special? (.list items'))
    (names : binders items = binders items') (each : List.Forall₂ Sheds items items') :
    Sheds (.list items) (.list items')
  | quoted {operands operands'} (same : Value.ofForms operands = Value.ofForms operands') :
    Sheds (.list (.symbol "quote" :: operands)) (.list (.symbol "quote" :: operands'))

instance : Std.Refl Sheds := ⟨.same⟩

mutual
theorem Sheds.ofForm : ∀ {form form'}, Sheds form form' → Value.ofForm form = Value.ofForm form'
  | _, _, .same _ => rfl
  | _, _, .tagged h => h.ofForm
  | _, _, .shed h => h.ofForm
  | _, _, .vector each => congrArg Value.vector (ofForms_sheds each)
  | _, _, .list _ _ each => congrArg Value.list (ofForms_sheds each)
  | _, _, .quoted same => by rw [Value.ofForm, Value.ofForms, same]; rfl

theorem ofForms_sheds : ∀ {forms forms'}, List.Forall₂ Sheds forms forms' →
    Value.ofForms forms = Value.ofForms forms'
  | _, _, .nil => rfl
  | _, _, .cons first rest => by
    rw [Value.ofForms, Value.ofForms, first.ofForm, ofForms_sheds rest]
end

theorem Sheds.vector? : ∀ {form form'}, Sheds form form' →
    Option.Rel (List.Forall₂ Sheds) form.vector? form'.vector?
  | form, _, .same _ => by
    cases form.vector? with
    | none => exact .none
    | some items => exact .some (List.forall₂_refl items)
  | _, _, .tagged h => h.vector?
  | _, _, .shed h => h.vector?
  | _, _, .vector each => .some each
  | _, _, .list _ _ _ => .none
  | _, _, .quoted _ => .none

/-- A symbol that is under no tag remains what it is. -/
theorem Sheds.symbol? {form form' : Form} (h : Sheds form form') :
    form'.symbol? = form.symbol? ∨ form.symbol? = none := by
  cases h with
  | same => exact .inl rfl
  | tagged | shed | vector | list | quoted => exact .inr rfl

/-! ## Layers -/

/-- Functions may differ in the tags that their bodies have shed. -/
def shedding : Leeway Nat := ⟨Sheds, fun position locals => locals[position]?⟩

/-- The same error, or what cannot be called is worded by its value in the first
    one and by a name in the second one. -/
def Rewords (e e' : Error) : Prop :=
  e = e' ∨ ∃ (callee : Value) (name : String), e = .notCallable callee.print ∧ e' = .notCallable name

/-- What may go with what when tags are shed. -/
abbrev shed : Correspondence := shedding.correspondence Rewords

theorem lawful_shed : shed.Lawful :=
  Leeway.lawful (Leeway.lookup_of_positional fun _ _ => rfl)
    (Leeway.push_of_positional fun _ _ => rfl) fun _ => .inl rfl

variable {place : Coordinate} {position : Nat}

theorem pairs_of_sheds {pairs pairs' : List Form} (each : List.Forall₂ Sheds pairs pairs')
    (names : pairNames pairs = pairNames pairs') : shed.Pairs place position pairs pairs' := by
  fun_induction pairNames pairs generalizing pairs' position with
  | case1 name form rest ih =>
    obtain _ | ⟨-, _ | ⟨first, others⟩⟩ := each
    simp only [pairNames, List.cons.injEq] at names
    exact .pair names.1 first (ih others names.2)
  | case2 pairs short =>
    rcases each with _ | ⟨-, _ | ⟨-, -⟩⟩
    · exact .nil
    · exact .single _ _
    · exact absurd rfl (short _ _ _)

theorem params_of_sheds {params params' : List Form}
    (names : params.map Form.symbol? = params'.map Form.symbol?) :
    List.Forall₂ (fun param param' : Form => param.symbol? = param'.symbol?) params params' := by
  induction params generalizing params' with
  | nil =>
    rw [List.map_eq_nil_iff.1 names.symm]
    exact .nil
  | cons param params ih =>
    cases params' with
    | nil => cases names
    | cons param' params' =>
      rw [List.map_cons, List.map_cons, List.cons.injEq] at names
      exact .cons names.1 (ih names.2)

theorem heads_of_sheds {head head' : Form} (h : Sheds head head') : shed.Heads place head head' := by
  refine ⟨h, fun callee callee' related => ?_⟩
  have printed : callee.print = callee'.print := lawful_shed.values.print related
  rw [calleeText, calleeText, printed]
  rcases h.symbol? with same | unnamed
  · rw [same]
    exact .inl rfl
  · rw [unnamed]
    cases head'.symbol? with
    | none => exact .inl rfl
    | some name => exact .inr ⟨callee', name, rfl, rfl⟩

theorem operands_of_sheds {head head' : Form} {operands operands' : List Form}
    (special : head.symbol?.bind Special.named? = head'.symbol?.bind Special.named?)
    (names : binders (head :: operands) = binders (head' :: operands'))
    (each : List.Forall₂ Sheds operands operands') :
    shed.Operands place (head.symbol?.bind Special.named?) operands operands' := by
  have here : special? (.list (head :: operands)) = head.symbol?.bind Special.named? := rfl
  have there : special? (.list (head' :: operands')) = head'.symbol?.bind Special.named? := rfl
  simp only [binders, here, there, ← special, List.getElem?_cons_succ, ← List.head?_eq_getElem?]
    at names
  have tails : shed.Rows place 2 operands.tail operands'.tail := by
    cases each with
    | nil => exact .nil
    | cons _ rest => exact rows_of_forall₂ rest
  have vectors : Option.Rel (List.Forall₂ Sheds) (operands.head?.bind Form.vector?)
      (operands'.head?.bind Form.vector?) := by
    cases each with
    | nil => exact .none
    | cons first _ => exact first.vector?
  generalize head.symbol?.bind Special.named? = named at names ⊢
  rcases named with _ | special
  · exact rows_of_forall₂ each
  cases special with
  | body | branch => exact rows_of_forall₂ each
  | quote => exact ofForms_sheds each
  | binding =>
    refine ⟨?_, tails⟩
    generalize operands.head?.bind Form.vector? = left at names vectors ⊢
    generalize operands'.head?.bind Form.vector? = right at names vectors ⊢
    cases vectors with
    | none => exact .none
    | some each => exact .some (pairs_of_sheds each names)
  | function =>
    refine ⟨?_, tails⟩
    generalize operands.head?.bind Form.vector? = left at names vectors ⊢
    generalize operands'.head?.bind Form.vector? = right at names vectors ⊢
    cases vectors with
    | none => exact .none
    | some _ => exact .some (params_of_sheds names)

/-- Where no tag is shed around it, a form is made as it was. -/
theorem layer_of_sheds {form form' : Form} (h : Sheds form form') :
    shed.Layer place form form' ∨
      (∃ inner inner', form = .tagged inner ∧ form' = .tagged inner' ∧ Sheds inner inner') ∨
      ∃ inner, form = .tagged inner ∧ Sheds inner form' := by
  have list {items items' : List Form}
      (special : special? (.list items) = special? (.list items'))
      (names : binders items = binders items') (each : List.Forall₂ Sheds items items') :
      shed.Layer place (.list items) (.list items') := by
    cases each with
    | nil => exact .empty
    | cons first rest =>
      exact .list special (fun _ => heads_of_sheds first) (operands_of_sheds special names rest)
  cases h with
  | tagged h => exact .inr (.inl ⟨_, _, rfl, rfl, h⟩)
  | shed h => exact .inr (.inr ⟨_, rfl, h⟩)
  | vector each => exact .inl (.vector (rows_of_forall₂ each))
  | list special names each => exact .inl (list special names each)
  | quoted same => exact .inl (.list rfl (fun _ => heads_of_sheds (.same _)) same)
  | same =>
    cases form with
    | nil => exact .inl .nil
    | bool b => exact .inl (.bool b)
    | int n => exact .inl (.int n)
    | float x => exact .inl (.float x)
    | str s => exact .inl (.str s)
    | symbol name => exact .inl (.symbol name)
    | vector items =>
      exact .inl (.vector (rows_of_forall₂ (List.forall₂_same.2 fun item _ => .same item)))
    | list items => exact .inl (list rfl rfl (List.forall₂_same.2 fun item _ => .same item))
    | tagged inner => exact .inr (.inl ⟨inner, inner, rfl, rfl, .same inner⟩)

/-! ## Evaluation -/

variable {tripped : Bool}

/-- When nobody watches, the first action ends like the second one, but for the
    wording of an error, unless it is nested too deeply. -/
abbrev Unseen (tripped : Bool) {α β : Type} (context context' : Context) (body : Action α)
    (body' : Action β) (post : α → Context → β → Context → Prop) : Prop :=
  Action.Follows (.unwatched tripped) (.unwatched tripped) (· = .depthExceeded maxDepth) Rewords
    context context' body body' post

theorem compositional₂_unseen : Action.Compositional₂ Rewords (Unseen tripped) :=
  Action.compositional₂_follows rfl (.inl rfl)

theorem unseen_evalForm {room room' : Nat} (le : room ≤ room') :
    shed.Carries (Unseen tripped) (evalForm room) (evalForm room') := by
  induction room generalizing room' with
  | zero => exact fun _ _ _ _ => Action.follows_excused rfl
  | succ room ih =>
    intro form form' context context' place now related scopes
    rcases layer_of_sheds related with layer | ⟨inner, inner', rfl, rfl, h⟩ | ⟨inner, rfl, h⟩
    · obtain ⟨room', rfl⟩ : ∃ k, room' = k + 1 := ⟨room' - 1, by omega⟩
      refine compositional₂_unseen.nested (Action.Follows.mono (lawful_shed.evalInner
        compositional₂_unseen (ih (Nat.le_of_succ_le_succ le)) layer scopes) ?_)
      rintro value c value' c' ⟨rfl, rfl, related⟩
      exact ⟨rfl, rfl, related⟩
    · obtain ⟨room', rfl⟩ : ∃ k, room' = k + 1 := ⟨room' - 1, by omega⟩
      refine compositional₂_unseen.nested (Action.Follows.bind (Action.Follows.mono
        (ih (Nat.le_of_succ_le_succ le) place now h scopes) ?_))
      rintro value c value' c' ⟨rfl, rfl, related⟩
      exact .ok ⟨rfl, rfl, related⟩
    · refine Action.Follows.deeper ?_
      unfold Action.Follows
      rw [evalInner, Action.answered_bind_breakpoint]
      refine Action.Follows.mono (ih (Nat.le_of_succ_le le) place now h scopes) ?_
      rintro value c value' c' ⟨rfl, rfl, related⟩
      exact ⟨rfl, rfl, related⟩

/-- Two results are alike but for tags in the bodies of functions, or they are
    one error but for the wording. -/
theorem concur_of_sheds {forms forms' : List Form} (each : List.Forall₂ Sheds forms forms')
    (now : Moment) (locals : List Binding) (tripped : Bool)
    (shallow : (((evalForms now forms).start locals).untouched tripped).1 ≠
      .error (.depthExceeded maxDepth)) :
    Concur (Value.Alike shedding) (((evalForms now forms).start locals).untouched tripped).1
        (((evalForms now forms').start locals).untouched tripped).1 ∨
      ∃ (callee : Value) (name : String),
        (((evalForms now forms).start locals).untouched tripped).1 =
          .error (.notCallable callee.print) ∧
        (((evalForms now forms').start locals).untouched tripped).1 =
          .error (.notCallable name) := by
  have scopes : shed.scope locals locals := by
    refine (Leeway.scopes_iff_forall₂ fun _ _ => rfl).2 (List.forall₂_same.2 fun binding _ => ?_)
    exact .bound (Value.alike_refl Sheds.same List.mem_of_getElem? binding.2)
  rw [Run.untouched_eq_answered] at shallow ⊢
  rw [Run.untouched_eq_answered]
  obtain ⟨e, rfl, fails⟩ | ⟨e, e', rewords, fails, fails'⟩ | ⟨v, v', related, returns, returns'⟩ :=
    results_evalForms now (fun room => unseen_evalForm (Nat.le_refl room)) each scopes
      lawful_shed.values.nil
  · exact absurd fails shallow
  · rw [fails, fails']
    rcases rewords with rfl | ⟨callee, name, rfl, rfl⟩
    · exact .inl (.error _)
    · exact .inr ⟨callee, name, rfl, rfl⟩
  · rw [returns, returns']
    exact .inl (.ok related)

/-- Tags around the head of a call, around a head that is a list, and in quoted
    data. -/
def labelled : List Form :=
  [.list [.tagged (.symbol "vector"),
    .list [.tagged (.list [.symbol "fn", .vector [.symbol "x"], .symbol "x"]), .int 1],
    .list [.symbol "quote", .list [.tagged (.symbol "if"), .int 2]]]]

/-- The same without these tags. -/
def unlabelled : List Form :=
  [.list [.symbol "vector",
    .list [.list [.symbol "fn", .vector [.symbol "x"], .symbol "x"], .int 1],
    .list [.symbol "quote", .list [.symbol "if", .int 2]]]]

theorem concur_of_sheds_unlabelled :
    Concur (Value.Alike shedding) (((evalForms [] labelled).start []).untouched false).1
        (((evalForms [] unlabelled).start []).untouched false).1 ∨
      ∃ (callee : Value) (name : String),
        (((evalForms [] labelled).start []).untouched false).1 =
          .error (.notCallable callee.print) ∧
        (((evalForms [] unlabelled).start []).untouched false).1 = .error (.notCallable name) := by
  have sheds : List.Forall₂ Sheds labelled unlabelled :=
    .cons (.list rfl rfl (.cons (.shed (.same _)) (.cons (.list rfl rfl
      (.cons (.shed (.same _)) (.cons (.same _) .nil))) (.cons (.quoted rfl) .nil)))) .nil
  exact concur_of_sheds sheds [] [] false (fun same => by cases same)

/-- A program that calls what is not a function, under a name. -/
def misnamed (head : Form) : List Form :=
  [.list [.symbol "let", .vector [.symbol "x", .int 1], .list [head]]]

/-- Where a symbol turns into the name of a special form, into a name that is
    bound or into a parameter when it loses its tag, there is another result; and
    where it turns into the head of a call, there may be another wording. -/
theorem not_concur_named :
    (((evalForms [] [.list [.tagged (.symbol "if"), .bool true, .int 1, .int 2]]).start []).untouched
        false).1 = .error (.unresolved "if") ∧
    (((evalForms [] [.list [.symbol "if", .bool true, .int 1, .int 2]]).start []).untouched
        false).1 = .ok (.int 1) ∧
    (((evalForms [] [.list [.symbol "let", .vector [.tagged (.symbol "x"), .int 1],
        .symbol "x"]]).start []).untouched false).1 = .error (.malformed .letName) ∧
    (((evalForms [] [.list [.symbol "let", .vector [.symbol "x", .int 1],
        .symbol "x"]]).start []).untouched false).1 = .ok (.int 1) ∧
    (((evalForms [] [.list [.list [.symbol "fn", .vector [.tagged (.symbol "x")], .symbol "x"],
        .int 1]]).start []).untouched false).1 = .error (.malformed .fnName) ∧
    (((evalForms [] [.list [.list [.symbol "fn", .vector [.symbol "x"], .symbol "x"],
        .int 1]]).start []).untouched false).1 = .ok (.int 1) ∧
    (((evalForms [] (misnamed (.tagged (.symbol "x")))).start []).untouched false).1 =
      .error (.notCallable "1") ∧
    (((evalForms [] (misnamed (.symbol "x"))).start []).untouched false).1 =
      .error (.notCallable "x") :=
  ⟨rfl, rfl, rfl, rfl, rfl, rfl, rfl, rfl⟩

end Stepper.Eval
