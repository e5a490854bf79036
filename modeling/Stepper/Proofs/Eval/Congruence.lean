/-
  Relations of values that programs cannot see through.

  A relation is a `Congruence` when values that it relates are made in the same
  way from parts that it relates, and differ at most in the functions that
  programs have made, whose identities agree.  Such values print alike and
  compare alike, and the built-in functions give related values for them
  (`Congruence.concur_call`).
-/
import Mathlib.Data.List.Forall2
import Stepper.Eval.Builtin

namespace Stepper.Eval

variable {α β : Type}

/-- Both succeed, with results as `R` says, or both fail with the same error. -/
inductive Concur (R : α → β → Prop) : Except Error α → Except Error β → Prop
  | ok {a b} (h : R a b) : Concur R (.ok a) (.ok b)
  | error (e : Error) : Concur R (.error e) (.error e)

theorem Concur.bind {γ δ : Type} {R : α → β → Prop} {R' : γ → δ → Prop} {r : Except Error α}
    {r' : Except Error β} {f : α → Except Error γ} {f' : β → Except Error δ} (h : Concur R r r')
    (rest : ∀ a b, R a b → Concur R' (f a) (f' b)) : Concur R' (r >>= f) (r' >>= f') := by
  cases h with
  | ok h => exact rest _ _ h
  | error e => exact .error e

theorem Concur.error_of_error {R : α → β → Prop} {r : Except Error α} {r' : Except Error β}
    {e : Error} (h : Concur R r r') (fails : r' = .error e) : r = .error e := by
  cases h with
  | ok h => cases fails
  | error e' =>
    cases fails
    rfl

namespace Value

/-- Values that are made in the same way from parts that are as `V` says.  Of
    functions that programs have made, bodies and bindings may differ. -/
inductive Outline (V : Value → Value → Prop) : Value → Value → Prop
  | nil : Outline V .nil .nil
  | bool (b : Bool) : Outline V (.bool b) (.bool b)
  | int (n : Int64) : Outline V (.int n) (.int n)
  | float (x : Float) : Outline V (.float x) (.float x)
  | str (s : String) : Outline V (.str s) (.str s)
  | symbol (name : String) : Outline V (.symbol name) (.symbol name)
  | list {items items'} (each : List.Forall₂ V items items') : Outline V (.list items) (.list items')
  | vector {items items'} (each : List.Forall₂ V items items') :
    Outline V (.vector items) (.vector items')
  | builtin (f : Builtin) : Outline V (.builtin f) (.builtin f)
  | closure (id params body body' captured captured' place) :
    Outline V (.closure id params body captured place) (.closure id params body' captured' place)

/-- The relation is kept by the ways to make values, and it relates only values
    that are made in the same way. -/
structure Congruence (V : Value → Value → Prop) : Prop where
  outline : ∀ {v v'}, V v v' → Outline V v v'
  nil : V .nil .nil
  bool : ∀ b, V (.bool b) (.bool b)
  int : ∀ n, V (.int n) (.int n)
  float : ∀ x, V (.float x) (.float x)
  str : ∀ s, V (.str s) (.str s)
  symbol : ∀ name, V (.symbol name) (.symbol name)
  list : ∀ {items items'}, List.Forall₂ V items items' → V (.list items) (.list items')
  vector : ∀ {items items'}, List.Forall₂ V items items' → V (.vector items) (.vector items')
  builtin : ∀ f, V (.builtin f) (.builtin f)

namespace Congruence

open Stepper.Syntax (Form)

variable {V : Value → Value → Prop} {v v' w w' : Value} {args args' : List Value}

/-! ## What programs see -/

mutual
theorem chars (h : Congruence V) : ∀ (v : Value) {v' : Value}, V v v' → v.chars = v'.chars
  | .list items, _, related => by
    cases h.outline related with
    | list each => rw [Value.chars, Value.chars, charsEach h items each]
  | .vector items, _, related => by
    cases h.outline related with
    | vector each => rw [Value.chars, Value.chars, charsEach h items each]
  | .nil, _, related | .bool _, _, related | .int _, _, related | .float _, _, related
  | .str _, _, related | .symbol _, _, related | .builtin _, _, related
  | .closure .., _, related => by
    cases h.outline related
    rfl

theorem charsEach (h : Congruence V) : ∀ (vs : List Value) {vs' : List Value},
    List.Forall₂ V vs vs' → Value.charsEach vs = Value.charsEach vs'
  | [], _, .nil => rfl
  | v :: vs, _, .cons first rest => by
    rw [Value.charsEach, Value.charsEach, chars h v first, charsEach h vs rest]
end

mutual
theorem same (h : Congruence V) : ∀ (a : Value) {a' b b' : Value}, V a a' → V b b' →
    a.same b = a'.same b'
  | .list items, _, _, _, related, other => by
    cases h.outline related with
    | list each =>
      cases h.outline other with
      | list each' => simp only [Value.same, sameAll h items each each']
      | _ => rfl
  | .vector items, _, _, _, related, other => by
    cases h.outline related with
    | vector each =>
      cases h.outline other with
      | vector each' => simp only [Value.same, sameAll h items each each']
      | _ => rfl
  | .nil, _, _, _, related, other | .bool _, _, _, _, related, other
  | .int _, _, _, _, related, other | .float _, _, _, _, related, other
  | .str _, _, _, _, related, other | .symbol _, _, _, _, related, other
  | .builtin _, _, _, _, related, other | .closure .., _, _, _, related, other => by
    cases h.outline related
    cases h.outline other <;> rfl

theorem sameAll (h : Congruence V) : ∀ (as : List Value) {as' bs bs' : List Value},
    List.Forall₂ V as as' → List.Forall₂ V bs bs' → Value.sameAll as bs = Value.sameAll as' bs'
  | [], _, _, _, .nil, other => by cases other <;> rfl
  | a :: as, _, _, _, .cons first rest, other => by
    cases other with
    | nil => rfl
    | cons first' rest' => simp only [Value.sameAll, same h a first first', sameAll h as rest rest']
end

mutual
/-- Data is related to itself. -/
theorem ofForm (h : Congruence V) : ∀ form : Form, V (Value.ofForm form) (Value.ofForm form)
  | .nil => h.nil
  | .bool b => h.bool b
  | .int n => h.int n
  | .float x => h.float x
  | .str s => h.str s
  | .symbol name => h.symbol name
  | .list items => h.list (ofForms h items)
  | .vector items => h.vector (ofForms h items)
  | .tagged form => ofForm h form

theorem ofForms (h : Congruence V) : ∀ forms : List Form,
    List.Forall₂ V (Value.ofForms forms) (Value.ofForms forms)
  | [] => .nil
  | form :: forms => .cons (ofForm h form) (ofForms h forms)
end

section

variable (h : Congruence V)
include h

theorem truthy (related : V v v') : v.truthy = v'.truthy := by
  cases h.outline related <;> rfl

theorem kind (related : V v v') : v.kind = v'.kind := by
  cases h.outline related <;> rfl

theorem numeral? (related : V v v') : v.numeral? = v'.numeral? := by
  cases h.outline related <;> rfl

theorem print (related : V v v') : v.print = v'.print := by
  rw [Value.print, Value.print, h.chars v related]

theorem plainText (related : V v v') : Builtin.plainText v = Builtin.plainText v' := by
  cases h.outline related with
  | nil | str => rfl
  | bool | int | float | symbol | builtin | closure => rfl
  | list | vector => exact h.chars _ related

theorem size? (related : V v v') : Builtin.size? v = Builtin.size? v' := by
  cases h.outline related with
  | list each | vector each => simp only [Builtin.size?, each.length_eq]
  | nil | bool | int | float | str | symbol | builtin | closure => rfl

/-! ## Built-in functions -/

theorem checked (n : Int) : Concur V (checked n) (checked n) := by
  unfold Eval.checked
  split
  · exact .ok (h.int _)
  · exact .error _

theorem divide (m n : Int64) : Concur V (divide m n) (divide m n) := by
  unfold Eval.divide
  split
  · exact .error _
  · split
    · exact h.checked _
    · exact .ok (h.float _)

theorem onIntegers (op : Arithmetic) (m n : Int64) :
    Concur V (op.onIntegers m n) (op.onIntegers m n) := by
  cases op with
  | add | sub | mul => exact h.checked _
  | div => exact h.divide m n

theorem modulo (m n : Int64) : Concur V (Builtin.modulo m n) (Builtin.modulo m n) := by
  unfold Builtin.modulo
  split
  · exact .error _
  · split
    · exact .error _
    · exact h.checked _

variable (b : Builtin)

theorem arith (op : Arithmetic) (left : V v v') (right : V w w') :
    Concur V (b.arith op v w) (b.arith op v' w') := by
  unfold Builtin.arith Builtin.mismatch
  rw [h.numeral? left, h.numeral? right, h.kind left, h.kind right]
  split
  · exact h.onIntegers op _ _
  · exact .ok (h.float _)
  · exact .error _
  · exact .error _

theorem chain (op : Arithmetic) (start : V v v') (each : List.Forall₂ V args args') :
    Concur V (b.chain op v args) (b.chain op v' args') := by
  induction each generalizing v v' with
  | nil => exact .ok start
  | cons first _ ih =>
    rw [Builtin.chain, Builtin.chain, List.foldlM_cons, List.foldlM_cons]
    exact (h.arith b op start first).bind fun _ _ => ih

theorem numerals (each : List.Forall₂ V args args') : b.numerals args = b.numerals args' := by
  induction each with
  | nil => rfl
  | cons first _ ih =>
    unfold Builtin.numerals at ih ⊢
    rw [List.mapM_cons, List.mapM_cons, ih, Builtin.mismatch, Builtin.mismatch, h.numeral? first,
      h.kind first]

theorem compareChain (each : List.Forall₂ V args args') :
    Concur V (b.compareChain args) (b.compareChain args') := by
  rw [Builtin.compareChain, Builtin.compareChain, h.numerals b each]
  cases b.numerals args' with
  | ok numbers => exact .ok (h.bool _)
  | error e => exact .error e

theorem neighbours_same (each : List.Forall₂ V args args') :
    Builtin.neighbours Value.same args = Builtin.neighbours Value.same args' := by
  induction each with
  | nil => rfl
  | cons first rest ih =>
    cases rest with
    | nil => rfl
    | cons second rest => simp only [Builtin.neighbours, h.same _ first second, ih]

theorem flatMap_plainText (each : List.Forall₂ V args args') :
    args.flatMap Builtin.plainText = args'.flatMap Builtin.plainText := by
  induction each with
  | nil => rfl
  | cons first _ ih => rw [List.flatMap_cons, List.flatMap_cons, h.plainText first, ih]

omit h in
theorem wrongCount (count : ArgumentCount) (each : List.Forall₂ V args args') :
    Concur V (.error (b.wrongCount count args)) (.error (b.wrongCount count args')) := by
  rw [Builtin.wrongCount, Builtin.wrongCount, each.length_eq]
  exact .error _

/-- A built-in function does not see a difference between related arguments. -/
theorem concur_call (each : List.Forall₂ V args args') :
    Concur V (b.call args) (b.call args') := by
  cases b with
  | add | mul => exact h.chain _ _ (h.int _) each
  | sub | div =>
    rcases each with _ | ⟨first, _ | ⟨second, rest⟩⟩
    · exact .error _
    · exact h.arith _ _ (h.int _) first
    · exact h.chain _ _ first (.cons second rest)
  | eq =>
    rcases each with _ | ⟨first, rest⟩
    · exact .error _
    · simp only [Builtin.call, h.neighbours_same (.cons first rest)]
      exact .ok (h.bool _)
  | lt | gt | le | ge =>
    rcases each with _ | ⟨first, rest⟩
    · exact .error _
    · exact h.compareChain _ (.cons first rest)
  | str =>
    simp only [Builtin.call, h.flatMap_plainText each]
    exact .ok (h.str _)
  | list => exact .ok (h.list each)
  | vector => exact .ok (h.vector each)
  | mod =>
    rcases each with _ | ⟨left, _ | ⟨right, _ | ⟨third, rest⟩⟩⟩
    · exact .error _
    · exact .error _
    · cases h.outline left with
      | int m =>
        cases h.outline right with
        | int n => exact h.modulo m n
        | _ => exact .error _
      | _ => exact .error _
    · exact wrongCount _ _ (.cons left (.cons right (.cons third rest)))
  | not =>
    rcases each with _ | ⟨value, _ | ⟨second, rest⟩⟩
    · exact .error _
    · simp only [Builtin.call, h.truthy value]
      exact .ok (h.bool _)
    · exact wrongCount _ _ (.cons value (.cons second rest))
  | inc | dec =>
    rcases each with _ | ⟨value, _ | ⟨second, rest⟩⟩
    · exact .error _
    · exact h.arith _ _ value (h.int _)
    · exact wrongCount _ _ (.cons value (.cons second rest))
  | count =>
    rcases each with _ | ⟨value, _ | ⟨second, rest⟩⟩
    · exact .error _
    · simp only [Builtin.call, h.size? value, Builtin.mismatch, h.kind value]
      split
      · exact h.checked _
      · exact .error _
    · exact wrongCount _ _ (.cons value (.cons second rest))

end

end Congruence

end Value

end Stepper.Eval
