/-
  The forms inside a form, and the names in scope there.

  `Form.at?` walks from a form along a coordinate, through the tags on its
  way.  It gives the form at the end with the tags that are around it, and the
  names that are lexically in scope there: of earlier pairs inside the vector
  of a `let`, of all its pairs in its body, and the parameters in the body of
  a `fn`.
-/
import Stepper.Eval.Evaluator
import Stepper.Proofs.Eval.Capture
import Stepper.Proofs.Syntax.Width

namespace Stepper.Syntax.Form

/-- The items of a collection, seen through the tags around it. -/
def items (form : Form) : List Form :=
  match form.untagged with
  | list items | vector items => items
  | _ => []

/-- A form and the same form without some of the tags around it. -/
inductive Strips : Form → Form → Prop
  | refl (form : Form) : Strips form form
  | tag {form form' : Form} (h : Strips form form') : Strips (.tagged form) form'

theorem Strips.inner {form form' : Form} (h : form.Strips (.tagged form')) :
    form.Strips form' := by
  generalize whole : Form.tagged form' = g at h
  induction h with
  | refl g => exact whole ▸ .tag (.refl form')
  | tag _ ih => exact .tag (ih whole)

theorem Strips.untagged {form form' : Form} (h : form.Strips form') :
    form.untagged = form'.untagged := by
  induction h with
  | refl => rfl
  | tag _ ih => exact ih

theorem Strips.items {form form' : Form} (h : form.Strips form') : form.items = form'.items := by
  rw [Form.items, h.untagged, Form.items]

theorem items_of_vector? {form : Form} {items : List Form} (h : form.vector? = some items) :
    form.items = items := by
  unfold vector? at h
  unfold Form.items
  split at h
  · cases h
    rename_i same
    rw [same]
  · cases h

variable {bound : Nat} {form : Form}

theorem Narrow.untagged (h : form.Narrow bound) : form.untagged.Narrow bound := by
  induction h with
  | tagged _ ih => exact ih
  | nil => exact .nil
  | bool b => exact .bool b
  | int n => exact .int n
  | float x => exact .float x
  | str s => exact .str s
  | symbol name => exact .symbol name
  | list width each => exact .list width each
  | vector width each => exact .vector width each

theorem Narrow.items (h : form.Narrow bound) :
    form.items.length ≤ bound ∧ ∀ item ∈ form.items, item.Narrow bound := by
  have narrow := h.untagged
  unfold Form.items
  split
  · rename_i same
    rw [same] at narrow
    cases narrow with
    | list width each => exact ⟨width, each⟩
  · rename_i same
    rw [same] at narrow
    cases narrow with
    | vector width each => exact ⟨width, each⟩
  · exact ⟨Nat.zero_le _, fun item mem => absurd mem List.not_mem_nil⟩

end Stepper.Syntax.Form

namespace Stepper.Eval

open Stepper.Syntax (Form)

/-! ## Bindings -/

theorem mem_of_lookup? {name : String} {locals : List Binding} {value : Value}
    (found : lookup? name locals = some value) : ∃ binding ∈ locals, binding.2 = value := by
  obtain ⟨binding, innermost, rfl⟩ := Option.map_eq_some_iff.1 found
  exact ⟨binding, List.mem_reverse.1 (List.mem_of_find?_eq_some innermost), rfl⟩

/-! ## Places -/

/-- The special form that a form is, if it is one. -/
def special? (form : Form) : Option Special :=
  match form.untagged with
  | .list (head :: _) => head.symbol?.bind Special.named?
  | _ => none

theorem special?_strips {form form' : Form} (h : form.Strips form') :
    special? form = special? form' := by
  rw [special?, h.untagged, special?]

theorem special?_of_vector? {form : Form} {items : List Form} (h : form.vector? = some items) :
    special? form = none := by
  unfold Form.vector? at h
  split at h
  · rename_i same
    rw [special?, same]
  · cases h

/-- The names that the pairs of a binding vector bind. -/
def boundNames : List Form → List String
  | name :: _ :: rest => name.symbol?.toList ++ boundNames rest
  | _ => []

theorem boundNames_append {pairs rest : List Form} (even : pairs.length % 2 = 0) :
    boundNames (pairs ++ rest) = boundNames pairs ++ boundNames rest := by
  fun_induction boundNames pairs with
  | case1 name form pairs ih =>
    rw [List.length_cons, List.length_cons] at even
    rw [List.cons_append, List.cons_append, boundNames, ih (by omega), List.append_assoc]
  | case2 pairs short =>
    match pairs, short, even with
    | [], _, _ => rfl
    | [_], _, even => cases even
    | name :: form :: pairs, short, _ => exact absurd rfl (short name form pairs)

/-- The names that the body of a form has in scope in addition. -/
def bodyNames (form : Form) : List String :=
  match special? form, form.items[1]?.bind Form.vector? with
  | some .binding, some pairs => boundNames pairs
  | some .function, some params => params.filterMap Form.symbol?
  | _, _ => []

theorem bodyNames_strips {form form' : Form} (h : form.Strips form') :
    bodyNames form = bodyNames form' := by
  rw [bodyNames, special?_strips h, h.items, bodyNames]

/-- A place in a form. -/
structure Standing where
  /-- What stands there, with the tags around it. -/
  form : Form
  /-- Whether it is the binding vector of a `let`. -/
  binds : Bool
  /-- The names in scope. -/
  names : List String

namespace Standing

/-- The names that come in addition at an item. -/
def added (p : Standing) (i : Nat) : List String :=
  if p.binds then boundNames (p.form.items.take (i - 1))
  else if i < 2 then []
  else bodyNames p.form

/-- The place of an item. -/
def child? (p : Standing) (i : Nat) : Option Standing :=
  p.form.items[i]?.map fun form =>
    ⟨form, special? p.form = some .binding && i = 1, p.names ++ p.added i⟩

/-- The place to which some steps lead. -/
def walk (p : Standing) (path : List UInt32) : Option Standing :=
  path.foldlM (fun p step => p.child? step.toNat) p

end Standing

/-- The place to which a coordinate leads. -/
def at? (form : Form) (place : Coordinate) : Option Standing :=
  Standing.walk ⟨form, false, []⟩ place.path

theorem at?_root (form : Form) : at? form .root = some ⟨form, false, []⟩ := rfl

/-! ## Steps -/

theorem toNat_stepTo {i : Nat} (lt : i < UInt32.size - 1) :
    (Coordinate.stepTo i).toNat = i := by
  have least : min i (UInt32.size - 1) = i := by omega
  rw [Coordinate.stepTo, least, UInt32.toNat_ofNat_of_lt' (by omega)]

variable {form : Form} {place : Coordinate} {p q : Standing} {i bound : Nat}

theorem Standing.narrow_child (h : p.child? i = some q) (narrow : p.form.Narrow bound) :
    q.form.Narrow bound ∧ i < bound := by
  obtain ⟨item, found, rfl⟩ := Option.map_eq_some_iff.1 h
  obtain ⟨lt, -⟩ := List.getElem?_eq_some_iff.1 found
  obtain ⟨width, each⟩ := narrow.items
  exact ⟨each item (List.mem_of_getElem? found), Nat.lt_of_lt_of_le lt width⟩

theorem Standing.narrow_walk {path : List UInt32} (h : p.walk path = some q)
    (narrow : p.form.Narrow bound) : q.form.Narrow bound := by
  induction path generalizing p with
  | nil =>
    cases h
    exact narrow
  | cons step path ih =>
    obtain ⟨next, child, rest⟩ := Option.bind_eq_some_iff.1 h
    exact ih rest (narrow_child child narrow).1

theorem at?_child (narrow : form.Narrow (UInt32.size - 1)) (here : at? form place = some p)
    (h : p.child? i = some q) : at? form (place.child i) = some q := by
  have there : p.form.Narrow (UInt32.size - 1) := Standing.narrow_walk here narrow
  obtain ⟨-, lt⟩ := Standing.narrow_child h there
  have found : place.path.foldlM (fun p step => p.child? step.toNat) ⟨form, false, []⟩ = some p :=
    here
  rw [at?, Coordinate.child, Standing.walk, List.foldlM_append, found]
  change (p.child? (Coordinate.stepTo i).toNat).bind some = some q
  rw [toNat_stepTo lt, h]
  rfl

/-! ## Places of items -/

theorem bodyNames_of_plain (notLet : special? form ≠ some .binding)
    (notFn : special? form ≠ some .function) : bodyNames form = [] := by
  unfold bodyNames
  split
  · rename_i same _
    exact absurd same notLet
  · rename_i same _
    exact absurd same notFn
  · rfl

namespace Standing

variable {item : Form} (found : p.form.items[i]? = some item)
include found

/-- An item of the binding vector of a `let` is in the scope of the earlier
    pairs. -/
theorem child?_of_binds (binds : p.binds = true) (notLet : special? p.form ≠ some .binding) :
    p.child? i = some ⟨item, false, p.names ++ boundNames (p.form.items.take (i - 1))⟩ := by
  simp [child?, found, added, binds, notLet]

variable (binds : p.binds = false)
include binds

/-- In most forms an item has the names in scope that the form has. -/
theorem child?_of_plain (notLet : special? p.form ≠ some .binding)
    (notFn : special? p.form ≠ some .function) : p.child? i = some ⟨item, false, p.names⟩ := by
  have added : p.added i = [] := by
    simp [added, binds, bodyNames_of_plain notLet notFn]
  rw [child?, found, Option.map_some, added, List.append_nil]
  simp [notLet]

/-- The binding vector of a `let`. -/
theorem child?_of_one (one : i = 1) (isLet : special? p.form = some .binding) :
    p.child? i = some ⟨item, true, p.names⟩ := by
  subst one
  simp [child?, found, added, binds, isLet]

/-- The body of a `let` or `fn`. -/
theorem child?_of_body (body : 2 ≤ i) :
    p.child? i = some ⟨item, false, p.names ++ bodyNames p.form⟩ := by
  have other : i ≠ 1 := by omega
  have notLt : ¬ i < 2 := by omega
  simp [child?, found, added, binds, other, notLt]

end Standing

end Stepper.Eval
