/-
  Evaluation in place.

  While a top-level form is evaluated, every form is evaluated in a context
  that `Fits` its place: the local bindings are those from outside and those
  of the names lexically in scope there, in order.  Functions carry this along
  (`Lexical`), so it holds in their bodies too, wherever they are called.  So
  what a breakpoint reports is `Exact` (`faithful_evalForm`).
-/
import Stepper.Proofs.Eval.Passing
import Stepper.Proofs.Eval.Scope

namespace Stepper.Eval

open Stepper.Syntax (Form)

/-! ## Values -/

/-- All functions in the value that programs have made are as `made` says. -/
inductive Value.Built (made : List String → List Form → List Binding → Coordinate → Prop) :
    Value → Prop
  | nil : Built made .nil
  | bool (b : Bool) : Built made (.bool b)
  | int (n : Int64) : Built made (.int n)
  | float (x : Float) : Built made (.float x)
  | str (s : String) : Built made (.str s)
  | symbol (name : String) : Built made (.symbol name)
  | list {items} (each : ∀ value ∈ items, Built made value) : Built made (.list items)
  | vector {items} (each : ∀ value ∈ items, Built made value) : Built made (.vector items)
  | builtin (f : Builtin) : Built made (.builtin f)
  | closure {id params body captured place} (own : made params body captured place)
    (each : ∀ binding ∈ captured, Built made binding.2) :
    Built made (.closure id params body captured place)

/-- The value contains no function that a program has made. -/
abbrev Value.ClosureFree : Value → Prop := Value.Built fun _ _ _ _ => False

namespace Value

variable {made made' : List String → List Form → List Binding → Coordinate → Prop}

theorem Built.mono {value : Value} (h : value.Built made)
    (weaker : ∀ params body captured place, made params body captured place →
      made' params body captured place) : value.Built made' := by
  induction h with
  | nil => exact .nil
  | bool b => exact .bool b
  | int n => exact .int n
  | float x => exact .float x
  | str s => exact .str s
  | symbol name => exact .symbol name
  | list _ ih => exact .list ih
  | vector _ ih => exact .vector ih
  | builtin f => exact .builtin f
  | closure own _ ih => exact .closure (weaker _ _ _ _ own) ih

mutual
theorem built_ofForm : ∀ form : Form, (ofForm form).Built made
  | .nil => .nil
  | .bool b => .bool b
  | .int n => .int n
  | .float x => .float x
  | .str s => .str s
  | .symbol name => .symbol name
  | .list items => .list (built_ofForms items)
  | .vector items => .vector (built_ofForms items)
  | .tagged form => built_ofForm form

theorem built_ofForms : ∀ forms : List Form, ∀ value ∈ ofForms forms, value.Built made
  | [], _, mem => absurd mem List.not_mem_nil
  | form :: forms, value, mem => by
    rcases List.mem_cons.1 mem with rfl | mem
    · exact built_ofForm form
    · exact built_ofForms forms value mem
end

theorem built_lookup? {name : String} {locals : List Binding} {value : Value}
    (each : ∀ binding ∈ locals, binding.2.Built made) (found : lookup? name locals = some value) :
    value.Built made := by
  obtain ⟨binding, mem, rfl⟩ := mem_of_lookup? found
  exact each binding mem

theorem built_call {f : Builtin} {args : List Value} {value : Value}
    (each : ∀ arg ∈ args, arg.Built made) (gives : f.call args = .ok value) :
    value.Built made := by
  have given := f.gives_call args
  rw [gives] at given
  cases given with
  | bool b => exact .bool b
  | int n => exact .int n
  | float x => exact .float x
  | str s => exact .str s
  | argument mem => exact each value mem
  | list => exact .list each
  | vector => exact .vector each

end Value

/-! ## Places -/

/-- The body of a function stands in the form, and at its items the names are
    in scope that it has captured, after those from outside, and its
    parameters. -/
def Lexical (root : Form) (outside : List String) (params : List String) (body : List Form)
    (captured : List Binding) (place : Coordinate) : Prop :=
  ∃ names, captured.map (·.1) = outside ++ names ∧ ∀ k form, body[k]? = some form →
    at? root (place.child (k + 2)) = some ⟨form, false, names ++ params⟩

/-- A form in its place, and a context whose bindings are those from outside
    and those of the names in scope there. -/
structure Fits (root : Form) (outside : List String) (p : Standing) (place : Coordinate)
    (form : Form) (context : Context) : Prop where
  here : at? root place = some p
  strips : p.form.Strips form
  ordinary : p.binds = false
  names : context.locals.map (·.1) = outside ++ p.names
  values : ∀ binding ∈ context.locals, binding.2.Built (Lexical root outside)

/-- What a breakpoint reports while a top-level form is evaluated. -/
def Event.Exact (root : Form) (outside : List String) : Event → Prop
  | .formStart => False
  | .hit site value => ∃ p inner room context, at? root site.place = some p ∧
    p.form.Strips (.tagged inner) ∧ context.locals.map (·.1) = outside ++ p.names ∧
    site.snapshot = .capture context.locals ∧
    (evalForm room inner site.place site.moment).outcome context = (.ok value, context)

/-- An evaluation gives a value and leaves the context as it was. -/
def Returns (root : Form) (outside : List String) (context : Context) (value : Value)
    (context' : Context) : Prop :=
  context' = context ∧ value.Built (Lexical root outside)

/-- Forms that fit their places are evaluated as breakpoints report it. -/
def Faithful (root : Form) (outside : List String) (ev : Inner) : Prop :=
  ∀ {p place form context} (now : Moment), Fits root outside p place form context →
    (ev form place now).Passes (Event.Exact root outside) context (Returns root outside context)

/-- Items that stand side by side from a position on. -/
def Row (root : Form) (outside : List String) (place : Coordinate) (context : Context)
    (position : Nat) (items : List Form) : Prop :=
  ∀ k item, items[k]? = some item →
    ∃ p, Fits root outside p (place.child (position + k)) item context

section

variable {root : Form} {outside : List String} {place : Coordinate} {context : Context}
  {position : Nat} {now : Moment} {p : Standing} {form item : Form} {items : List Form}

theorem Row.head (h : Row root outside place context position (item :: items)) :
    ∃ p, Fits root outside p (place.child position) item context :=
  h 0 item rfl

theorem Row.tail (h : Row root outside place context position (item :: items)) :
    Row root outside place context (position + 1) items := by
  intro k other found
  have next := h (k + 1) other found
  rwa [Nat.add_comm k 1, ← Nat.add_assoc] at next

theorem Fits.congr {context' : Context} (h : Fits root outside p place form context)
    (same : context'.locals = context.locals) : Fits root outside p place form context' :=
  ⟨h.here, h.strips, h.ordinary, same ▸ h.names, same ▸ h.values⟩

theorem filterMap_of_parameterNames {params : List Form} {names : List String}
    (read : parameterNames params = .ok names) : params.filterMap Form.symbol? = names := by
  induction params generalizing names with
  | nil =>
    cases read
    rfl
  | cons param params ih =>
    have head : parameterNames (param :: params) =
        (param.symbol?.elim (.error (.malformed .fnName)) .ok >>= fun name =>
          parameterNames params >>= fun names => .ok (name :: names)) := List.mapM_cons
    rw [head] at read
    cases known : param.symbol? with
    | none =>
      rw [known] at read
      cases read
    | some name =>
      rw [known] at read
      cases rest : parameterNames params with
      | error e =>
        rw [rest] at read
        cases read
      | ok others =>
        rw [rest] at read
        cases read
        rw [List.filterMap_cons_some known, ih rest]

/-! ## Parts of forms -/

section

variable (narrow : root.Narrow (UInt32.size - 1))
include narrow

/-- The items of most forms have the names in scope that the form has. -/
theorem Fits.row (fits : Fits root outside p place form context)
    (notLet : special? form ≠ some .binding) (notFn : special? form ≠ some .function) :
    Row root outside place context 0 form.items := by
  intro k item found
  rw [Nat.zero_add]
  rw [← fits.strips.items] at found
  rw [← special?_strips fits.strips] at notLet notFn
  have child := Standing.child?_of_plain found fits.ordinary notLet notFn
  exact ⟨_, at?_child narrow fits.here child, .refl item, rfl, fits.names, fits.values⟩

/-- The body of a `let` or `fn` has its names in scope in addition. -/
theorem Fits.body (fits : Fits root outside p place form context) {k : Nat}
    (found : form.items[k + 2]? = some item) :
    at? root (place.child (k + 2)) = some ⟨item, false, p.names ++ bodyNames form⟩ := by
  rw [← fits.strips.items] at found
  have child := Standing.child?_of_body found fits.ordinary (by omega)
  rw [bodyNames_strips fits.strips] at child
  exact at?_child narrow fits.here child

end

variable {ev : Inner} (inner : Faithful root outside ev)
include inner

theorem passes_evalItems (row : Row root outside place context position items) :
    (evalItems ev place now position items).Passes (Event.Exact root outside) context
      fun values context' => context' = context ∧
        ∀ value ∈ values, value.Built (Lexical root outside) := by
  induction items generalizing position with
  | nil => exact Action.passes_pure ⟨rfl, fun value mem => absurd mem List.not_mem_nil⟩
  | cons item items ih =>
    obtain ⟨p, fits⟩ := row.head
    refine Action.Passes.bind ((inner _ fits).mono ?_)
    rintro value context' - ⟨rfl, built⟩
    refine Action.Passes.bind ((ih row.tail).mono ?_)
    rintro values context' - ⟨rfl, each⟩
    refine Action.passes_pure ⟨rfl, fun v mem => ?_⟩
    rcases List.mem_cons.1 mem with rfl | mem
    · exact built
    · exact each v mem

theorem passes_evalBody (row : Row root outside place context position items) {last : Value}
    (built : last.Built (Lexical root outside)) :
    (evalBody ev place now last position items).Passes (Event.Exact root outside) context
      (Returns root outside context) := by
  induction items generalizing position last with
  | nil => exact Action.passes_pure ⟨rfl, built⟩
  | cons item items ih =>
    obtain ⟨p, fits⟩ := row.head
    refine Action.Passes.bind ((inner _ fits).mono ?_)
    rintro value context' - ⟨rfl, built⟩
    exact ih row.tail built

theorem passes_evalCallee (row : Row root outside place context (position + 2) items) {last : Value}
    (built : last.Built (Lexical root outside)) :
    (evalCallee ev place now last position items).Passes (Event.Exact root outside) context
      (Returns root outside context) := by
  induction items generalizing position last with
  | nil => exact Action.passes_pure ⟨rfl, built⟩
  | cons item items ih =>
    obtain ⟨p, fits⟩ := row.head
    refine Action.Passes.bind ((inner _ fits).mono ?_)
    rintro value context' - ⟨rfl, built⟩
    refine ih ?_ built
    have next := row.tail
    rwa [Nat.add_right_comm] at next

theorem passes_evalIf (row : Row root outside place context 1 items) :
    (evalIf ev place now items).Passes (Event.Exact root outside) context
      (Returns root outside context) := by
  unfold evalIf
  split
  · obtain ⟨p, test⟩ := row.head
    obtain ⟨q, yes⟩ := row.tail.head
    refine Action.Passes.bind ((inner _ test).mono ?_)
    rintro value context' - ⟨rfl, -⟩
    split
    · exact inner _ yes
    · exact Action.passes_pure ⟨rfl, .nil⟩
  · obtain ⟨p, test⟩ := row.head
    obtain ⟨q, yes⟩ := row.tail.head
    obtain ⟨r, no⟩ := row.tail.tail.head
    refine Action.Passes.bind ((inner _ test).mono ?_)
    rintro value context' - ⟨rfl, -⟩
    split
    · exact inner _ yes
    · exact inner _ no
  · exact Action.passes_throw _

/-- The bindings of a `let` are made one after another, each in the scope of
    the earlier ones. -/
theorem passes_evalBindings (narrow : root.Narrow (UInt32.size - 1)) {done pairs : List Form}
    (here : at? root place = some p) (binds : p.binds = true)
    (notLet : special? p.form ≠ some .binding) (items : p.form.items = done ++ pairs)
    (even : done.length % 2 = 0)
    (names : context.locals.map (·.1) = outside ++ (p.names ++ boundNames done))
    (values : ∀ binding ∈ context.locals, binding.2.Built (Lexical root outside)) :
    (evalBindings ev place now done.length pairs).Passes (Event.Exact root outside) context
      fun _ context' => ∃ more, context' = { context with locals := context.locals ++ more } ∧
        more.map (·.1) = boundNames pairs ∧
        ∀ binding ∈ more, binding.2.Built (Lexical root outside) := by
  generalize position : done.length = n
  fun_induction evalBindings ev place now n pairs generalizing done context with
  | case1 => exact Action.passes_throw _
  | case2 n symbol item rest name known ih =>
    subst position
    have found : p.form.items[done.length + 1]? = some item := by
      rw [items, List.getElem?_append_right (by omega), Nat.add_sub_cancel_left]
      rfl
    have earlier : p.form.items.take (done.length + 1 - 1) = done := by
      rw [items, Nat.add_sub_cancel, List.take_left]
    have child := Standing.child?_of_binds found binds notLet
    rw [earlier] at child
    have fits : Fits root outside ⟨item, false, p.names ++ boundNames done⟩
        (place.child (done.length + 1)) item context :=
      ⟨at?_child narrow here child, .refl item, rfl, names, values⟩
    refine Action.Passes.bind ((inner _ fits).mono ?_)
    rintro value context' - ⟨rfl, built⟩
    refine Action.Passes.bind (Action.passes_modify ?_)
    have grown : boundNames (done ++ [symbol, item]) = boundNames done ++ [name] := by
      rw [boundNames_append even, boundNames, known]
      rfl
    have items' : p.form.items = (done ++ [symbol, item]) ++ rest := by
      rw [items, List.append_assoc]
      rfl
    have length : (done ++ [symbol, item]).length = done.length + 2 := List.length_append
    have names' : (context'.locals ++ [(name, value)]).map (·.1) =
        outside ++ (p.names ++ boundNames (done ++ [symbol, item])) := by
      rw [List.map_append, names, grown, List.append_assoc, List.append_assoc]
      rfl
    have values' : ∀ binding ∈ context'.locals ++ [(name, value)],
        binding.2.Built (Lexical root outside) := by
      intro binding mem
      rcases List.mem_append.1 mem with mem | mem
      · exact values binding mem
      · rw [List.mem_singleton.1 mem]
        exact built
    refine (ih items' (by omega) names' values' length).mono ?_
    rintro - context'' - ⟨more, rfl, bound, each⟩
    refine ⟨(name, value) :: more, ?_, ?_, fun binding mem => ?_⟩
    · simp
    · rw [List.map_cons, bound, boundNames, known]
      rfl
    · rcases List.mem_cons.1 mem with rfl | mem
      · exact built
      · exact each binding mem
  | case3 n pairs short =>
    refine Action.passes_pure ⟨[], ?_, ?_, fun binding mem => absurd mem List.not_mem_nil⟩
    · rw [List.append_nil]
    · unfold boundNames
      split
      · exact absurd rfl (short _ _ _)
      · rfl

omit inner in
theorem passes_evalFn (narrow : root.Narrow (UInt32.size - 1))
    (fits : Fits root outside p place form context) (isFn : special? form = some .function)
    {head : Form} {operands : List Form} (items : form.items = head :: operands) :
    (evalFn place now operands).Passes (Event.Exact root outside) context
      (Returns root outside context) := by
  unfold evalFn
  split
  · exact Action.passes_throw _
  · rename_i params known
    obtain ⟨vector, first, isVector⟩ := Option.bind_eq_some_iff.1 known
    obtain ⟨body, rfl⟩ : ∃ body, operands = vector :: body := List.head?_eq_some_iff.1 first
    refine Action.Passes.bind (Action.passes_ofExcept fun names read => ?_)
    refine Action.Passes.bind (Action.passes_get (Action.passes_pure ⟨rfl, ?_⟩))
    have bound : bodyNames form = names := by
      simp [bodyNames, isFn, items, isVector, filterMap_of_parameterNames read]
    refine .closure ⟨p.names, fits.names, fun k item found => ?_⟩ fits.values
    have inBody : form.items[k + 2]? = some item := by
      rw [items]
      exact found
    rw [← bound]
    exact fits.body narrow inBody

theorem passes_evalLet (narrow : root.Narrow (UInt32.size - 1))
    (fits : Fits root outside p place form context) (isLet : special? form = some .binding)
    {head : Form} {operands : List Form} (items : form.items = head :: operands) :
    (evalLet ev place now operands).Passes (Event.Exact root outside) context
      (Returns root outside context) := by
  unfold evalLet
  split
  · exact Action.passes_throw _
  · rename_i pairs known
    split
    · exact Action.passes_throw _
    obtain ⟨vector, first, isVector⟩ := Option.bind_eq_some_iff.1 known
    obtain ⟨body, rfl⟩ : ∃ body, operands = vector :: body := List.head?_eq_some_iff.1 first
    have names : bodyNames form = boundNames pairs := by
      simp [bodyNames, isLet, items, isVector]
    have second : p.form.items[1]? = some vector := by
      rw [fits.strips.items, items]
      rfl
    have isLet' : special? p.form = some .binding := by
      rw [special?_strips fits.strips, isLet]
    have child := Standing.child?_of_one second fits.ordinary rfl isLet'
    have notLet : special? vector ≠ some .binding := by
      rw [special?_of_vector? isVector]
      exact fun same => by cases same
    have all : vector.items = [] ++ pairs := Form.items_of_vector? isVector
    have outer : context.locals.map (·.1) = outside ++ (p.names ++ boundNames []) := by
      simpa [boundNames] using fits.names
    refine Action.Passes.inScope (Action.Passes.bind ((passes_evalBindings inner narrow
      (at?_child narrow fits.here child) rfl notLet all rfl outer fits.values).mono ?_))
    rintro - context' - ⟨more, rfl, bound, each⟩
    have row : Row root outside place { context with locals := context.locals ++ more } 2 body := by
      intro k item found
      rw [Nat.add_comm 2 k]
      have inBody : form.items[k + 2]? = some item := by
        rw [items]
        exact found
      refine ⟨_, fits.body narrow inBody, .refl item, rfl, ?_, fun binding mem => ?_⟩
      · rw [List.map_append, fits.names, bound, names, List.append_assoc]
      · rcases List.mem_append.1 mem with mem | mem
        · exact fits.values binding mem
        · exact each binding mem
    refine (passes_evalBody inner row .nil).mono ?_
    rintro value context' - ⟨rfl, built⟩
    refine ⟨?_, built⟩
    simp

theorem passes_apply {head : Form} {callee : Value} {args : List Value}
    (function : callee.Built (Lexical root outside))
    (each : ∀ arg ∈ args, arg.Built (Lexical root outside)) :
    (apply ev head now callee args).Passes (Event.Exact root outside) context
      (Returns root outside context) := by
  unfold apply
  split
  · exact Action.passes_ofExcept fun value gives => ⟨rfl, Value.built_call each gives⟩
  · rename_i id params body captured place
    split
    · exact Action.passes_throw _
    rename_i count
    have same : params.length = args.length := by omega
    cases function with
    | closure own bindings =>
      obtain ⟨names, captures, stands⟩ := own
      refine Action.Passes.withLocals ((passes_evalCallee inner ?_ .nil).mono ?_)
      · intro k form found
        rw [Nat.zero_add, Nat.add_comm 2 k]
        refine ⟨_, stands k form found, .refl form, rfl, ?_, fun binding mem => ?_⟩
        · rw [List.map_append, captures, List.map_fst_zip (Nat.le_of_eq same), List.append_assoc]
        · rcases List.mem_append.1 mem with mem | mem
          · exact bindings binding mem
          · exact each binding.2 (List.of_mem_zip mem).2
      · rintro value context' - ⟨rfl, built⟩
        exact ⟨rfl, built⟩
  · exact Action.passes_throw _

omit inner in
theorem passes_evalQuote {operands : List Form} :
    (evalQuote operands).Passes (Event.Exact root outside) context
      (Returns root outside context) := by
  unfold evalQuote
  split
  · exact Action.passes_pure ⟨rfl, Value.built_ofForm _⟩
  · exact Action.passes_throw _

theorem passes_evalList (narrow : root.Narrow (UInt32.size - 1)) {items : List Form}
    (fits : Fits root outside p place (.list items) context) :
    (evalList ev place now items).Passes (Event.Exact root outside) context
      (Returns root outside context) := by
  cases items with
  | nil => exact Action.passes_pure ⟨rfl, .list fun value mem => absurd mem List.not_mem_nil⟩
  | cons head operands =>
    have row : special? (.list (head :: operands)) ≠ some .binding →
        special? (.list (head :: operands)) ≠ some .function →
        Row root outside place context 0 (head :: operands) := fits.row narrow
    have special : special? (.list (head :: operands)) = head.symbol?.bind Special.named? := rfl
    simp only [evalList]
    rw [special] at row
    split
    · exact passes_evalQuote
    · rename_i named
      rw [named] at row
      have items := row (by decide) (by decide)
      exact passes_evalBody inner items.tail .nil
    · rename_i named
      rw [named] at row
      have items := row (by decide) (by decide)
      exact passes_evalIf inner items.tail
    · rename_i named
      exact passes_evalLet inner narrow fits (special.trans named) rfl
    · rename_i named
      exact passes_evalFn narrow fits (special.trans named) rfl
    · rename_i named
      rw [named] at row
      have items := row (by decide) (by decide)
      obtain ⟨q, first⟩ := items.head
      refine Action.Passes.bind ((inner _ first).mono ?_)
      rintro callee context' - ⟨rfl, function⟩
      refine Action.Passes.bind ((passes_evalItems inner items.tail).mono ?_)
      rintro args context' - ⟨rfl, each⟩
      exact passes_apply inner function each

end

section

variable {root : Form} {outside : List String} (narrow : root.Narrow (UInt32.size - 1))
include narrow

theorem passes_evalInner {room : Nat} (inner : Faithful root outside (evalForm room)) :
    Faithful root outside (evalInner (evalForm room)) := by
  intro p place form context now fits
  cases form with
  | nil => exact Action.passes_pure ⟨rfl, .nil⟩
  | bool b => exact Action.passes_pure ⟨rfl, .bool b⟩
  | int n => exact Action.passes_pure ⟨rfl, .int n⟩
  | float x => exact Action.passes_pure ⟨rfl, .float x⟩
  | str s => exact Action.passes_pure ⟨rfl, .str s⟩
  | symbol name =>
    refine Action.Passes.bind (Action.passes_get ?_)
    split
    · rename_i found
      exact Action.passes_pure ⟨rfl, Value.built_lookup? fits.values found⟩
    · split
      · exact Action.passes_pure ⟨rfl, .builtin _⟩
      · exact Action.passes_throw _
  | vector items =>
    have row : Row root outside place context 0 items :=
      fits.row narrow (fun same => by cases same) (fun same => by cases same)
    refine Action.Passes.bind (Action.passes_checkpoint ?_)
    refine Action.Passes.bind ((passes_evalItems inner row).mono ?_)
    rintro values context' - ⟨rfl, each⟩
    exact Action.passes_pure ⟨rfl, .vector each⟩
  | list items =>
    exact Action.Passes.bind (Action.passes_checkpoint (passes_evalList inner narrow fits))
  | tagged form =>
    have untagged : Fits root outside p place form context :=
      { fits with strips := fits.strips.inner }
    refine Action.Passes.bind ((inner now untagged).mono ?_)
    rintro value context' outcome ⟨rfl, built⟩
    refine Action.passes_breakpoint ?_ ⟨rfl, built⟩
    exact ⟨p, form, room, context', fits.here, fits.strips, fits.names, rfl, outcome⟩

/-- Wherever a form stands, breakpoints in it report their places and the names
    in scope there. -/
theorem faithful_evalForm (room : Nat) : Faithful root outside (evalForm room) := by
  induction room with
  | zero => exact fun _ _ => Action.passes_throw _
  | succ room ih =>
    intro p place form context now fits
    have deeper : Fits root outside p place form { context with depth := context.depth + 1 } :=
      fits.congr rfl
    refine Action.Passes.nested ((passes_evalInner narrow ih now deeper).mono ?_)
    rintro value context' - ⟨rfl, built⟩
    exact ⟨rfl, built⟩

end

end Stepper.Eval
