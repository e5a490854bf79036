/-
  Values that differ in their functions only.

  A `Leeway` says which forms may stand for each other in the bodies of
  functions, and what of the bindings that functions have captured has to
  agree.  Values are `Alike` when they differ in nothing else, so programs
  cannot tell them apart (`Value.congruence_alike`).
-/
import Stepper.Proofs.Eval.Congruence
import Stepper.Eval.Snapshot

namespace Stepper.Eval

open Stepper.Syntax (Form)

variable {κ : Type}

/-- In what the functions that programs have made may differ. -/
structure Leeway (κ : Type) where
  /-- Forms that may stand for each other. -/
  form : Form → Form → Prop
  /-- What is compared of bindings. -/
  entry : κ → List Binding → Option Binding

mutual
/-- The values differ in nothing but in functions, and there as allowed. -/
inductive Value.Alike (l : Leeway κ) : Value → Value → Prop
  | nil : Value.Alike l .nil .nil
  | bool (b : Bool) : Value.Alike l (.bool b) (.bool b)
  | int (n : Int64) : Value.Alike l (.int n) (.int n)
  | float (x : Float) : Value.Alike l (.float x) (.float x)
  | str (s : String) : Value.Alike l (.str s) (.str s)
  | symbol (name : String) : Value.Alike l (.symbol name) (.symbol name)
  | list {items items'} (each : List.Forall₂ (Value.Alike l) items items') :
    Value.Alike l (.list items) (.list items')
  | vector {items items'} (each : List.Forall₂ (Value.Alike l) items items') :
    Value.Alike l (.vector items) (.vector items')
  | builtin (f : Builtin) : Value.Alike l (.builtin f) (.builtin f)
  | closure {id params body body' captured captured' place}
    (forms : List.Forall₂ l.form body body')
    (bindings : ∀ key, Option.Rel (Binding.Alike l) (l.entry key captured) (l.entry key captured')) :
    Value.Alike l (.closure id params body captured place)
      (.closure id params body' captured' place)

/-- The same name, bound to values that are alike. -/
inductive Binding.Alike (l : Leeway κ) : Binding → Binding → Prop
  | bound {name value value'} (h : Value.Alike l value value') :
    Binding.Alike l (name, value) (name, value')
end

/-- The bindings agree in all that is compared of them. -/
def Leeway.Scopes (l : Leeway κ) (locals locals' : List Binding) : Prop :=
  ∀ key, Option.Rel (Binding.Alike l) (l.entry key locals) (l.entry key locals')

theorem rel_map_snd {l : Leeway κ} {binding? binding?' : Option Binding}
    (h : Option.Rel (Binding.Alike l) binding? binding?') :
    Option.Rel (Value.Alike l) (binding?.map (·.2)) (binding?'.map (·.2)) := by
  cases h with
  | none => exact .none
  | some binding =>
    cases binding with
    | bound alike => exact .some alike

namespace Value

variable {l : Leeway κ}

mutual
/-- Every value is alike to itself, if every form may stand for itself and
    bindings are compared with bindings of the same function. -/
theorem alike_refl (same : ∀ form, l.form form form)
    (mem : ∀ {key locals binding}, l.entry key locals = some binding → binding ∈ locals) :
    ∀ value : Value, value.Alike l value
  | .nil => .nil
  | .bool b => .bool b
  | .int n => .int n
  | .float x => .float x
  | .str s => .str s
  | .symbol name => .symbol name
  | .list items => .list (alikeEach_refl same mem items)
  | .vector items => .vector (alikeEach_refl same mem items)
  | .builtin f => .builtin f
  | .closure id params body captured place => by
    refine .closure (List.forall₂_same.2 fun form _ => same form) fun key => ?_
    cases found : l.entry key captured with
    | none => exact .none
    | some binding =>
      have smaller : sizeOf binding.2 < sizeOf captured := by
        have inside : sizeOf (binding.1, binding.2) < sizeOf captured :=
          List.sizeOf_lt_of_mem (mem found)
        rw [Prod.mk.sizeOf_spec] at inside
        omega
      exact .some (.bound (alike_refl same mem binding.2))
termination_by value => sizeOf value

theorem alikeEach_refl (same : ∀ form, l.form form form)
    (mem : ∀ {key locals binding}, l.entry key locals = some binding → binding ∈ locals) :
    ∀ values : List Value, List.Forall₂ (Alike l) values values
  | [] => .nil
  | value :: values => .cons (alike_refl same mem value) (alikeEach_refl same mem values)
termination_by values => sizeOf values
end

theorem congruence_alike : Congruence (Alike l) where
  outline h := by
    cases h with
    | nil => exact .nil
    | bool b => exact .bool b
    | int n => exact .int n
    | float x => exact .float x
    | str s => exact .str s
    | symbol name => exact .symbol name
    | list each => exact .list each
    | vector each => exact .vector each
    | builtin f => exact .builtin f
    | closure => exact .closure ..
  nil := .nil
  bool := .bool
  int := .int
  float := .float
  str := .str
  symbol := .symbol
  list := .list
  vector := .vector
  builtin := .builtin

end Value

/-! ## Bindings that are compared by their positions -/

namespace Leeway

variable {l : Leeway Nat} (positional : ∀ position locals, l.entry position locals = locals[position]?)
  {locals locals' : List Binding}
include positional

theorem scopes_iff_forall₂ :
    l.Scopes locals locals' ↔ List.Forall₂ (Binding.Alike l) locals locals' := by
  simp only [Scopes, positional]
  constructor
  · intro h
    induction locals generalizing locals' with
    | nil =>
      cases locals' with
      | nil => exact .nil
      | cons binding' locals' => cases h 0
    | cons binding locals ih =>
      cases locals' with
      | nil => cases h 0
      | cons binding' locals' =>
        cases h 0 with
        | some first => exact .cons first (ih fun position => h (position + 1))
  · intro each position
    induction each generalizing position with
    | nil => exact .none
    | cons first _ ih =>
      cases position with
      | zero => exact .some first
      | succ position => exact ih position

theorem lookup_of_positional (scopes : l.Scopes locals locals') (name : String) :
    Option.Rel (Value.Alike l) (lookup? name locals) (lookup? name locals') := by
  refine rel_map_snd ?_
  have each := List.rel_reverse ((scopes_iff_forall₂ positional).1 scopes)
  generalize locals.reverse = left at each ⊢
  generalize locals'.reverse = right at each ⊢
  induction each with
  | nil => exact .none
  | cons first _ ih =>
    cases first with
    | @bound other value value' alike =>
      rw [List.find?_cons, List.find?_cons]
      cases other == name with
      | false => exact ih
      | true => exact .some (.bound alike)

theorem push_of_positional {binding binding' : Binding} (scopes : l.Scopes locals locals')
    (alike : Binding.Alike l binding binding') :
    l.Scopes (locals ++ [binding]) (locals' ++ [binding']) := by
  rw [scopes_iff_forall₂ positional] at scopes ⊢
  exact List.rel_append scopes (.cons alike .nil)

end Leeway

end Stepper.Eval
