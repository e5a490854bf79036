/-
  Values as text.

  Quoted data is written as its form is without the tags (`print_ofForm`), and
  data without floats is quoted data of some form (`Value.Plain.exists_form`).
  So the text of such data reads back as the same data, unless it is nested
  too deep for the reader (`rereading_print`).
-/
import Stepper.Proofs.Eval.Tags
import Stepper.Proofs.Eval.Wrapping

namespace Stepper.Syntax.Form

theorem erasedAll_eq_map (forms : List Form) : erasedAll forms = forms.map erased := by
  induction forms with
  | nil => rfl
  | cons form forms ih => rw [erasedAll, ih, List.map_cons]

theorem Plain.erased {names : String → Prop} {form : Form} (h : form.Plain names) :
    form.erased.Plain names := by
  induction h with
  | nil => exact .nil
  | bool b => exact .bool b
  | int n => exact .int n
  | str s => exact .str s
  | symbol named => exact .symbol named
  | list _ ih =>
    rw [Form.erased, erasedAll_eq_map]
    exact .list (List.forall_mem_map.2 ih)
  | vector _ ih =>
    rw [Form.erased, erasedAll_eq_map]
    exact .vector (List.forall_mem_map.2 ih)
  | tagged _ ih => exact ih

end Stepper.Syntax.Form

namespace Stepper.Eval

open Stepper.Syntax (Addressable addressable_of_small Form IsName maxNesting readForm
  readForm_of_shallow readForm_of_deep sequence)

namespace Value

/-! ## Quoted data -/

mutual
/-- Quoted data is written as the form is without its tags. -/
theorem chars_ofForm : ∀ form : Form, (ofForm form).chars = form.erased.chars
  | .nil | .bool _ | .int _ | .float _ | .str _ | .symbol _ => rfl
  | .list items => congrArg (sequence '(' ')') (charsEach_ofForms items)
  | .vector items => congrArg (sequence '[' ']') (charsEach_ofForms items)
  | .tagged form => chars_ofForm form

theorem charsEach_ofForms : ∀ forms : List Form,
    charsEach (ofForms forms) = Form.charsEach (Form.erasedAll forms)
  | [] => rfl
  | form :: forms => by
    rw [ofForms, charsEach, Form.erasedAll, Form.charsEach, chars_ofForm form,
      charsEach_ofForms forms]
end

theorem print_ofForm (form : Form) : (ofForm form).print = form.erased.print :=
  congrArg String.ofList (chars_ofForm form)

mutual
/-- Quoted data is as deep as the form is without its tags. -/
theorem depth_ofForm : ∀ form : Form, (ofForm form).depth = form.erased.depth
  | .nil | .bool _ | .int _ | .float _ | .str _ | .symbol _ => rfl
  | .list items => congrArg (· + 1) (depthAll_ofForms items)
  | .vector items => congrArg (· + 1) (depthAll_ofForms items)
  | .tagged form => depth_ofForm form

theorem depthAll_ofForms : ∀ forms : List Form,
    depthAll (ofForms forms) = Form.depthAll (Form.erasedAll forms)
  | [] => rfl
  | form :: forms => by
    rw [ofForms, depthAll, Form.erasedAll, Form.depthAll, depth_ofForm form,
      depthAll_ofForms forms]
end

/-! ## Data without floats -/

/-- There are no floats and no functions in the value, and its symbols have
    such names. -/
inductive Plain (names : String → Prop) : Value → Prop
  | nil : Plain names .nil
  | bool (b : Bool) : Plain names (.bool b)
  | int (n : Int64) : Plain names (.int n)
  | str (s : String) : Plain names (.str s)
  | symbol {name} (named : names name) : Plain names (.symbol name)
  | list {items} (each : ∀ item ∈ items, Plain names item) : Plain names (.list items)
  | vector {items} (each : ∀ item ∈ items, Plain names item) : Plain names (.vector items)

variable {names : String → Prop} {value : Value} {items : List Value}

theorem exists_forms (each : ∀ item ∈ items, ∃ form : Form, form.Plain names ∧ ofForm form = item) :
    ∃ forms : List Form, (∀ form ∈ forms, form.Plain names) ∧ ofForms forms = items := by
  induction items with
  | nil => exact ⟨[], List.forall_mem_nil _, rfl⟩
  | cons item items ih =>
    obtain ⟨⟨form, plain, rfl⟩, others⟩ := List.forall_mem_cons.1 each
    obtain ⟨forms, plain', rfl⟩ := ih others
    exact ⟨form :: forms, List.forall_mem_cons.2 ⟨plain, plain'⟩, rfl⟩

/-- Such data can be quoted. -/
theorem Plain.exists_form (h : value.Plain names) :
    ∃ form : Form, form.Plain names ∧ ofForm form = value := by
  induction h with
  | nil => exact ⟨.nil, .nil, rfl⟩
  | bool b => exact ⟨.bool b, .bool b, rfl⟩
  | int n => exact ⟨.int n, .int n, rfl⟩
  | str s => exact ⟨.str s, .str s, rfl⟩
  | @symbol name named => exact ⟨.symbol name, .symbol named, rfl⟩
  | list _ ih =>
    obtain ⟨forms, plain, rfl⟩ := exists_forms ih
    exact ⟨.list forms, .list plain, rfl⟩
  | vector _ ih =>
    obtain ⟨forms, plain, rfl⟩ := exists_forms ih
    exact ⟨.vector forms, .vector plain, rfl⟩

theorem sameAll_self (each : ∀ item ∈ items, same item item = true) :
    sameAll items items = true := by
  induction items with
  | nil => rfl
  | cons item items ih =>
    obtain ⟨first, others⟩ := List.forall_mem_cons.1 each
    rw [sameAll, first, ih others, Bool.and_self]

/-- Data without floats is equal to itself. -/
theorem Plain.same_self (h : value.Plain names) : same value value = true := by
  induction h with
  | nil => rfl
  | bool b | int n | str s | symbol => simp [same]
  | list _ ih | vector _ ih =>
    rw [same]
    exact sameAll_self ih

/-! ## Reading it back -/

/-- The value is the data of the form that its text is. -/
def Rereads (value : Value) : Prop :=
  ∃ form, readForm value.print = .ok form ∧ ofForm form = value ∧ same (ofForm form) value = true

theorem Plain.rereads (h : value.Plain IsName) (shallow : value.depth ≤ maxNesting) :
    value.Rereads := by
  obtain ⟨form, plain, rfl⟩ := h.exists_form
  have again : ofForm form.erased = ofForm form := ofForm_erased form
  rw [depth_ofForm] at shallow
  refine ⟨form.erased, ?_, again, ?_⟩
  · rw [print_ofForm]
    exact readForm_of_shallow plain.erased shallow
  · rw [again]
    exact h.same_self

/-- The reader refuses deeper data, and only for its depth. -/
theorem Plain.refused (h : value.Plain IsName) (deep : maxNesting < value.depth) :
    ∃ range, readForm value.print = .error ⟨.tooDeep, range⟩ := by
  obtain ⟨form, plain, rfl⟩ := h.exists_form
  rw [depth_ofForm] at deep
  rw [print_ofForm]
  exact readForm_of_deep plain.erased deep

/-- Forms and the data they stand for are written alike up to the tags, and
    data without floats is read back.  As for forms, this is about texts under
    2 ^ 32 bytes, whose offsets fit into 32 bits. -/
theorem rereading_print :
    (∀ form : Form, (ofForm form).print = form.erased.print) ∧
    ∀ value : Value, value.Plain IsName →
      (value.depth ≤ maxNesting → value.Rereads) ∧
      (maxNesting < value.depth → ∃ range, readForm value.print = .error ⟨.tooDeep, range⟩) ∧
      (value.print.utf8ByteSize < UInt32.size → Addressable value.print) :=
  ⟨print_ofForm, fun _ plain => ⟨plain.rereads, plain.refused, addressable_of_small⟩⟩

theorem Plain.wrapped (h : value.Plain names) (n : Nat) : (value.wrapped n).Plain names := by
  induction n generalizing value with
  | zero => exact h
  | succ n ih => exact ih (.vector (List.forall_mem_singleton.2 h))

theorem rereading_print_samples :
    (ofForm (.list [.tagged (.int 1), .tagged (.tagged (.vector []))])).print = "(1 [])" ∧
    Rereads (.vector [.int Int64.minValue, .str "\"\\\n", .list [], .symbol "-a'"]) ∧
    (∃ range, readForm (nil.wrapped 512).print = .error ⟨.tooDeep, range⟩) ∧
    Addressable (Value.vector [.int Int64.minValue, .str "\"\\\n", .list [], .symbol "-a'"]).print := by
  obtain ⟨print, read⟩ := rereading_print
  have symbol : IsName "-a'" := ⟨rfl, by decide⟩
  have plain : Plain IsName (.vector [.int Int64.minValue, .str "\"\\\n", .list [], .symbol "-a'"]) := by
    refine .vector ?_
    simp only [List.forall_mem_cons]
    exact ⟨.int _, .str _, .list (List.forall_mem_nil _), .symbol symbol, List.forall_mem_nil _⟩
  have deep : maxNesting < (nil.wrapped 512).depth := by
    rw [depth_wrapped]
    decide
  exact ⟨print _, (read _ plain).1 (by decide), (read _ (Plain.nil.wrapped 512)).2.1 deep,
    (read _ plain).2.2 (by decide +kernel)⟩

end Value

end Stepper.Eval
