/-
  Forms that may stand for each other.

  A leeway is `Sound` when forms that may stand for each other agree in their
  outermost layer, but for tags around the first one, and when bindings that
  agree in all that is compared give values that are alike for every name.
  Then the forms are evaluated alike in such bindings: the first one tracks
  the second one (`tracks_evalForm`, `tracks_evalForms`), as long as it has no
  more room.
-/
import Stepper.Proofs.Eval.Alike
import Stepper.Proofs.Eval.Tracking

namespace Stepper.Eval

open Stepper.Syntax (Form)

variable {κ : Type}

/-! ## Layers of forms -/

/-- Binding vectors that bind the same names to forms as `F` says. -/
inductive Pairs (F : Form → Form → Prop) : List Form → List Form → Prop
  | nil : Pairs F [] []
  | single (form form' : Form) : Pairs F [form] [form']
  | pair {name name' form form' rest rest'} (known : name.symbol? = name'.symbol?)
    (first : F form form') (others : Pairs F rest rest') :
    Pairs F (name :: form :: rest) (name' :: form' :: rest')

/-- Operands of a special form, or of a call, whose parts are as `F` says. -/
def Operands (F : Form → Form → Prop) : Option Special → List Form → List Form → Prop
  | some .quote, operands, operands' => Value.ofForms operands = Value.ofForms operands'
  | some .binding, operands, operands' =>
    Option.Rel (Pairs F) (operands.head?.bind Form.vector?) (operands'.head?.bind Form.vector?) ∧
      List.Forall₂ F operands.tail operands'.tail
  | some .function, operands, operands' =>
    Option.Rel (List.Forall₂ fun param param' => param.symbol? = param'.symbol?)
        (operands.head?.bind Form.vector?) (operands'.head?.bind Form.vector?) ∧
      List.Forall₂ F operands.tail operands'.tail
  | _, operands, operands' => List.Forall₂ F operands operands'

/-- Forms that are made in the same way from parts that are as `F` says. -/
inductive Layer (F : Form → Form → Prop) : Form → Form → Prop
  | nil : Layer F .nil .nil
  | bool (b : Bool) : Layer F (.bool b) (.bool b)
  | int (n : Int64) : Layer F (.int n) (.int n)
  | float (x : Float) : Layer F (.float x) (.float x)
  | str (s : String) : Layer F (.str s) (.str s)
  | symbol (name : String) : Layer F (.symbol name) (.symbol name)
  | vector {items items'} (each : List.Forall₂ F items items') :
    Layer F (.vector items) (.vector items')
  | empty : Layer F (.list []) (.list [])
  | list {head head' operands operands'} (name : head.symbol? = head'.symbol?)
    (first : F head head')
    (rest : Operands F (head.symbol?.bind Special.named?) operands operands') :
    Layer F (.list (head :: operands)) (.list (head' :: operands'))
  | tagged {form form'} (h : F form form') : Layer F (.tagged form) (.tagged form')

section

variable {F : Form → Form → Prop} [Std.Refl F]

theorem pairs_refl : ∀ pairs : List Form, Pairs F pairs pairs
  | [] => .nil
  | [form] => .single form form
  | _ :: form :: rest => .pair rfl (refl form) (pairs_refl rest)

theorem operands_refl (special : Option Special) (operands : List Form) :
    Operands F special operands operands := by
  match special with
  | none | some .body | some .branch => exact List.forall₂_refl operands
  | some .quote => rfl
  | some .binding =>
    refine ⟨?_, List.forall₂_refl operands.tail⟩
    cases operands.head?.bind Form.vector? with
    | none => exact .none
    | some pairs => exact .some (pairs_refl pairs)
  | some .function =>
    refine ⟨?_, List.forall₂_refl operands.tail⟩
    cases operands.head?.bind Form.vector? with
    | none => exact .none
    | some params => exact .some (List.forall₂_same.2 fun _ _ => rfl)

/-- A form is made in the same way as itself. -/
theorem layer_refl (form : Form) : Layer F form form := by
  cases form with
  | nil => exact .nil
  | bool b => exact .bool b
  | int n => exact .int n
  | float x => exact .float x
  | str s => exact .str s
  | symbol name => exact .symbol name
  | vector items => exact .vector (List.forall₂_refl items)
  | tagged form => exact .tagged (refl form)
  | list items =>
    cases items with
    | nil => exact .empty
    | cons head operands => exact .list rfl (refl head) (operands_refl _ operands)

end

/-! ## Leeways -/

/-- Nothing in which the leeway lets values differ can be told by evaluation. -/
structure Leeway.Sound (l : Leeway κ) : Prop where
  same : ∀ form, l.form form form
  /-- The forms are made in the same way, or the first one is under a tag. -/
  layer : ∀ {form form'}, l.form form form' →
    Layer l.form form form' ∨ ∃ inner, form = .tagged inner ∧ l.form inner form'
  mem : ∀ {key locals binding}, l.entry key locals = some binding → binding ∈ locals
  lookup : ∀ {locals locals'}, l.Scopes locals locals' → ∀ name,
    Option.Rel (Value.Alike l) (lookup? name locals) (lookup? name locals')
  push : ∀ {locals locals' binding binding'}, l.Scopes locals locals' →
    Binding.Alike l binding binding' → l.Scopes (locals ++ [binding]) (locals' ++ [binding'])

theorem Leeway.Sound.alike {l : Leeway κ} (sound : l.Sound) (value : Value) : value.Alike l value :=
  Value.alike_refl sound.same sound.mem value

theorem Leeway.Sound.scopes {l : Leeway κ} (sound : l.Sound) {locals locals' : List Binding}
    (same : ∀ key, l.entry key locals = l.entry key locals') : l.Scopes locals locals' := by
  intro key
  rw [same]
  cases l.entry key locals' with
  | none => exact .none
  | some binding => exact .some (.bound (sound.alike binding.2))

/-! ## Parts of forms -/

variable (l : Leeway κ)

/-- Both evaluations give values that are alike, and leave their contexts as
    they were. -/
def Returns₂ (context context' : Context) (value : Value) (c : Context) (value' : Value)
    (c' : Context) : Prop :=
  c = context ∧ c' = context' ∧ value.Alike l value'

theorem Ends.alike {l : Leeway κ} {context context' : Context} {r r' : Result × Context}
    (h : Ends (Returns₂ l context context') r r') : Concur (Value.Alike l) r.1 r'.1 := by
  cases h with
  | ok returns => exact .ok returns.2.2
  | error e => exact .error e

/-- Forms that may stand for each other are evaluated alike. -/
def Interchanges (ev ev' : Inner) : Prop :=
  ∀ {form form' context context'} (place : Coordinate) (now : Moment), l.form form form' →
    l.Scopes context.locals context'.locals →
    Action.Tracks context context' (ev form place now) (ev' form' place now)
      (Returns₂ l context context')

variable {l} {context context' : Context} {place : Coordinate} {now : Moment} {position : Nat}
  {items items' : List Form}

/-- The leeway as a correspondence, at all places alike. -/
def Leeway.correspondence (l : Leeway κ) (E : Error → Error → Prop) : Correspondence :=
  ⟨fun _ => l.form, Value.Alike l, l.Scopes, E⟩

variable {E : Error → Error → Prop}

theorem rows_of_forall₂ (each : List.Forall₂ l.form items items') :
    (l.correspondence E).Rows place position items items' := by
  induction each generalizing position with
  | nil => exact .nil
  | cons first _ ih => exact .cons first ih

theorem forall₂_of_rows (rows : (l.correspondence E).Rows place position items items') :
    List.Forall₂ l.form items items' := by
  induction rows with
  | nil => exact .nil
  | cons first _ ih => exact .cons first ih

theorem pairs_correspond (pairs : Pairs l.form items items') :
    (l.correspondence E).Pairs place position items items' := by
  induction pairs generalizing position with
  | nil => exact .nil
  | single form form' => exact .single form form'
  | pair known first _ ih => exact .pair known first ih

theorem operands_correspond {special : Option Special} (rest : Operands l.form special items items') :
    (l.correspondence E).Operands place special items items' := by
  match special with
  | none | some .body | some .branch => exact rows_of_forall₂ rest
  | some .quote => exact rest
  | some .function => exact ⟨rest.1, rows_of_forall₂ rest.2⟩
  | some .binding =>
    obtain ⟨vectors, body⟩ := rest
    refine ⟨?_, rows_of_forall₂ body⟩
    generalize items.head?.bind Form.vector? = left at vectors ⊢
    generalize items'.head?.bind Form.vector? = right at vectors ⊢
    cases vectors with
    | none => exact .none
    | some pairs => exact .some (pairs_correspond pairs)

theorem Leeway.lawful
    (lookup : ∀ {locals locals'}, l.Scopes locals locals' → ∀ name,
      Option.Rel (Value.Alike l) (lookup? name locals) (lookup? name locals'))
    (push : ∀ {locals locals' binding binding'}, l.Scopes locals locals' →
      Binding.Alike l binding binding' → l.Scopes (locals ++ [binding]) (locals' ++ [binding']))
    (same : ∀ e, E e e) : (l.correspondence E).Lawful where
  values := Value.congruence_alike
  lookup := lookup
  push _ scopes related := push scopes (.bound related)
  function forms bindings := .closure (forall₂_of_rows forms) bindings
  callee := by
    intro id params body body' captured captured' place related
    cases related with
    | closure forms bindings => exact ⟨rows_of_forall₂ forms, bindings⟩
  error := same

theorem Leeway.Sound.lawful (sound : l.Sound) : (l.correspondence (· = ·)).Lawful :=
  Leeway.lawful sound.lookup sound.push fun _ => rfl

/-- Forms of one layer are evaluated alike if the forms inside are. -/
theorem tracks_evalInner {ev ev' : Inner} (inner : Interchanges l ev ev') (sound : l.Sound)
    {form form' : Form} (layer : Layer l.form form form')
    (scopes : l.Scopes context.locals context'.locals) :
    Action.Tracks context context' (evalInner ev form place now) (evalInner ev' form' place now)
      (Returns₂ l context context') := by
  have carries : (l.correspondence (· = ·)).Carries Action.Tracks ev ev' := inner
  suffices untagged : (l.correspondence (· = ·)).Layer place form form' →
      Action.Tracks context context' (evalInner ev form place now) (evalInner ev' form' place now)
        (Returns₂ l context context') by
    cases layer with
    | nil => exact untagged .nil
    | bool b => exact untagged (.bool b)
    | int n => exact untagged (.int n)
    | float x => exact untagged (.float x)
    | str s => exact untagged (.str s)
    | symbol name => exact untagged (.symbol name)
    | vector each => exact untagged (.vector (rows_of_forall₂ each))
    | empty => exact untagged .empty
    | list name first rest =>
      refine untagged (.list (by rw [name]) (fun _ => ⟨first, ?_⟩) (operands_correspond rest))
      intro callee callee' related
      rw [calleeText, calleeText, name, sound.lawful.values.print related]
      exact rfl
    | tagged h =>
      refine Action.Tracks.bind ((inner _ _ h scopes).mono ?_)
      rintro value c value' c' ⟨rfl, rfl, alike⟩
      exact Action.tracks_breakpoint ⟨rfl, rfl, alike⟩
  exact fun layer => sound.lawful.evalInner Action.compositional₂_tracks carries layer scopes

/-! ## Evaluation -/

/-- A form under a tag is evaluated like the form, one level deeper. -/
theorem tracks_tagged {room room' : Nat} {form form' : Form}
    (h : Action.Tracks { context with depth := context.depth + 1 } context'
      (evalForm room form place now) (evalForm room' form' place now)
      (Returns₂ l { context with depth := context.depth + 1 } context')) :
    Action.Tracks context context' (evalForm (room + 1) (.tagged form) place now)
      (evalForm room' form' place now) (Returns₂ l context context') := by
  refine Action.Tracks.deeper ?_
  rw [← bind_pure (evalForm room' form' place now)]
  refine Action.Tracks.bind (h.mono ?_)
  rintro value c value' c' ⟨rfl, rfl, alike⟩
  exact Action.tracks_extra ⟨rfl, rfl, alike⟩

theorem tracks_evalForm (sound : l.Sound) {room room' : Nat} (le : room ≤ room') :
    Interchanges l (evalForm room) (evalForm room') := by
  induction room generalizing room' with
  | zero => exact fun _ _ _ _ => Action.tracks_tooDeep
  | succ room ih =>
    intro form form' context context' place now related scopes
    rcases sound.layer related with layer | ⟨inner, rfl, untagged⟩
    · obtain ⟨room', rfl⟩ : ∃ k, room' = k + 1 := ⟨room' - 1, by omega⟩
      have interchanges : Interchanges l (evalForm room) (evalForm room') :=
        ih (Nat.le_of_succ_le_succ le)
      have deeper : l.Scopes { context with depth := context.depth + 1 }.locals
          { context' with depth := context'.depth + 1 }.locals := scopes
      refine Action.compositional₂_tracks.nested
        ((tracks_evalInner interchanges sound layer deeper).mono ?_)
      rintro value c value' c' ⟨rfl, rfl, alike⟩
      exact ⟨rfl, rfl, alike⟩
    · exact tracks_tagged (ih (Nat.le_of_succ_le le) place now untagged scopes)

theorem tracks_eval (sound : l.Sound) {form form' : Form} (related : l.form form form')
    (scopes : l.Scopes context.locals context'.locals) (depths : context'.depth ≤ context.depth) :
    Action.Tracks context context' (eval form place now) (eval form' place now)
      (Returns₂ l context context') :=
  Action.Tracks.bind (Action.tracks_get
    (tracks_evalForm sound (Nat.sub_le_sub_left depths maxDepth) place now related scopes))

theorem tracks_evalForms (sound : l.Sound) (each : List.Forall₂ l.form items items')
    (scopes : l.Scopes context.locals context'.locals) (depths : context'.depth ≤ context.depth) :
    Action.Tracks context context' (evalForms now items) (evalForms now items')
      (Returns₂ l context context') := by
  suffices ∀ {last last'} position, last.Alike l last' →
      Action.Tracks context context' (evalFormsFrom now last position items)
        (evalFormsFrom now last' position items') (Returns₂ l context context') from this 0 .nil
  induction each with
  | nil => exact fun _ alike => Action.tracks_pure ⟨rfl, rfl, alike⟩
  | cons first _ ih =>
    intro last last' position alike
    refine Action.Tracks.bind (Action.tracks_announce ?_)
    refine Action.Tracks.bind ((tracks_eval sound first scopes depths).mono ?_)
    rintro value c value' c' ⟨rfl, rfl, alike⟩
    exact ih (position + 1) alike

end Stepper.Eval
