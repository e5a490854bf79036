/-
  Operands that are there.

  A computation that counts on an item at a position, on a first operand or on
  a value being a number may find none (`Slip`).  `Careful.call` looks each
  time and tells.  It gives what the built-in functions give
  (`Careful.call_eq`), so these never slip.
-/
import Stepper.Proofs.Eval.Composition

namespace Stepper.Eval

/-- What is not there although it is counted on. -/
inductive Slip where
  /-- An item at a position. -/
  | outOfRange (position length : Nat)
  /-- An operand to start with. -/
  | noOperand
  /-- A number that is to be made a float. -/
  | noNumber (value : Value)

/-- Something done that may also slip. -/
abbrev Careful (m : Type → Type) (α : Type) := ExceptT Slip m α

namespace Careful

section

variable {m : Type → Type} [Monad m] {α β : Type}

/-- Something done without a slip. -/
def certain (x : m α) : Careful m α := ExceptT.lift x

/-- The item at a position. -/
def item (items : List α) (position : Nat) : Careful m α :=
  match items[position]? with
  | some item => pure item
  | none => throw (.outOfRange position items.length)

/-- The items from a position on. -/
def itemsFrom (items : List α) (position : Nat) : Careful m (List α) :=
  if position ≤ items.length then pure (items.drop position)
  else throw (.outOfRange position items.length)

/-- The items two by two; the last one may be left alone. -/
def chunks : List α → List (List α)
  | [] => []
  | [item] => [[item]]
  | first :: second :: items => [first, second] :: chunks items

/-- The neighbours, two by two. -/
def windows : List α → List (List α)
  | first :: second :: items => [first, second] :: windows (second :: items)
  | _ => []

variable [LawfulMonad m]

@[simp] theorem certain_pure (a : α) : certain (pure a : m α) = pure a := by
  refine ExceptT.ext ?_
  simp [certain]

@[simp] theorem certain_bind (x : m α) (f : α → m β) :
    certain (x >>= f) = certain x >>= fun a => certain (f a) := by
  refine ExceptT.ext ?_
  simp [certain]

theorem foldlM_certain (f : β → α → m β) (start : β) (xs : List α) :
    xs.foldlM (fun total x => certain (f total x)) start = certain (xs.foldlM f start) := by
  induction xs generalizing start with
  | nil => exact (certain_pure start).symm
  | cons x xs ih => simp only [List.foldlM_cons, certain_bind, ih]

end

/-! ## Built-in functions -/

/-- A number as a float. -/
def float : Value → Careful (Except Error) Float
  | .int n => pure (Numeral.int n).toFloat
  | .float x => pure x
  | value => throw (.noNumber value)

/-- One arithmetic step on behalf of `b`. -/
def arith (b : Builtin) (op : Arithmetic) (left right : Value) : Careful (Except Error) Value :=
  match left, right with
  | .int a, .int c => certain (op.onIntegers a c)
  | .int _, .float _ | .float _, .int _ | .float _, .float _ => do
    let x ← float left
    let y ← float right
    return .float (op.onFloats x y)
  | .int _, other | .float _, other | other, _ => certain (.error (b.mismatch "numbers" other))

/-- Arithmetic from the left, starting with `start`. -/
def chain (b : Builtin) (op : Arithmetic) (start : Value) (args : List Value) :
    Careful (Except Error) Value :=
  args.foldlM (arith b op) start

/-- The first operand. -/
def first : List Value → Careful (Except Error) Value
  | [] => throw .noOperand
  | value :: _ => pure value

/-- Arithmetic from the left, starting with the first operand. -/
def rest (b : Builtin) (op : Arithmetic) (args : List Value) : Careful (Except Error) Value := do
  let start ← first args
  chain b op start args.tail

/-- The only operand. -/
def only (b : Builtin) : List Value → Careful (Except Error) Value
  | [value] => pure value
  | args => certain (.error (b.wrongCount (.exactly 1) args))

/-- Whether the comparison `b` holds for two numbers. -/
def holds (b : Builtin) (left right : Value) : Careful (Except Error) Bool :=
  match left, right with
  | .int a, .int c => return b.holds (compare a.toInt c.toInt)
  | _, _ => do
    let x ← float left
    let y ← float right
    let order :=
      if x < y then some .lt else if x == y then some .eq else if y < x then some .gt else none
    return (order.map b.holds).getD false

/-- Whether a test holds for all neighbours. -/
def pairs (test : Value → Value → Careful (Except Error) Bool) (args : List Value) :
    Careful (Except Error) Value := do
  let held ← (windows args).allM fun pair => do
    let left ← item pair 0
    let right ← item pair 1
    test left right
  return .bool held

/-- Whether each argument compares to the next as `b` says. -/
def comparison (b : Builtin) (args : List Value) : Careful (Except Error) Value :=
  match args.find? fun value => value.numeral?.isNone with
  | some other => certain (.error (b.mismatch "numbers" other))
  | none => pairs (holds b) args

/-- Calls a built-in function. -/
def call (b : Builtin) (args : List Value) : Careful (Except Error) Value :=
  match b with
  | .add => chain b .add (.int 0) args
  | .mul => chain b .mul (.int 1) args
  | .sub =>
    match args.length with
    | 0 => certain (.error (b.wrongCount (.atLeast 1) args))
    | 1 => do arith b .sub (.int 0) (← first args)
    | _ => rest b .sub args
  | .div =>
    match args.length with
    | 0 => certain (.error (b.wrongCount (.atLeast 1) args))
    | 1 => do arith b .div (.int 1) (← first args)
    | _ => rest b .div args
  | .eq =>
    if args.isEmpty then certain (.error (b.wrongCount (.atLeast 1) args))
    else pairs (fun left right => return left.same right) args
  | .lt | .gt | .le | .ge =>
    if args.isEmpty then certain (.error (b.wrongCount (.atLeast 1) args))
    else comparison b args
  | .inc => do arith b .add (← only b args) (.int 1)
  | .dec => do arith b .sub (← only b args) (.int 1)
  | _ => certain (b.call args)

theorem arith_eq (b : Builtin) (op : Arithmetic) (left right : Value) :
    arith b op left right = certain (b.arith op left right) := by
  cases left <;> cases right <;> rfl

theorem chain_eq (b : Builtin) (op : Arithmetic) (start : Value) (args : List Value) :
    chain b op start args = certain (b.chain op start args) := by
  rw [chain, Builtin.chain, ← foldlM_certain]
  congr 1
  funext total value
  exact arith_eq b op total value

theorem holds_eq (b : Builtin) (v w : Numeral) :
    holds b v.value w.value = pure (((Builtin.order? v w).map b.holds).getD false) := by
  cases v <;> cases w <;> rfl

/-- Neighbours are there to be tested. -/
theorem pairs_map {α : Type} {test : Value → Value → Careful (Except Error) Bool} (f : α → Value)
    {related : α → α → Bool} (tested : ∀ a c, test (f a) (f c) = pure (related a c)) (xs : List α) :
    pairs test (xs.map f) = pure (.bool (Builtin.neighbours related xs)) := by
  have all : (windows (xs.map f)).allM (fun pair => do
      let left ← item pair 0
      let right ← item pair 1
      test left right) = (pure (Builtin.neighbours related xs) : Careful (Except Error) Bool) := by
    induction xs with
    | nil => rfl
    | cons x xs ih =>
      cases xs with
      | nil => rfl
      | cons y rest =>
        simp only [List.map_cons] at ih ⊢
        have neighbours : (do
            let left ← item [f x, f y] 0
            let right ← item [f x, f y] 1
            test left right) = (pure (related x y) : Careful (Except Error) Bool) := tested x y
        rw [windows, List.allM, neighbours, pure_bind, ih]
        cases both : related x y <;> simp [Builtin.neighbours, both]
  rw [pairs, all, pure_bind]

theorem numerals_eq_error {b : Builtin} {args : List Value} {other : Value}
    (found : args.find? (fun value => value.numeral?.isNone) = some other) :
    b.numerals args = .error (b.mismatch "numbers" other) := by
  induction args with
  | nil => cases found
  | cons value args ih =>
    rw [Builtin.numerals] at ih ⊢
    rw [List.mapM_cons]
    cases number : value.numeral? with
    | none =>
      rw [List.find?_cons_of_pos (by rw [number]; rfl)] at found
      cases found
      rfl
    | some n =>
      rw [List.find?_cons_of_neg (by simp [number])] at found
      rw [ih found]
      rfl

theorem exists_numerals {args : List Value}
    (none : args.find? (fun value => value.numeral?.isNone) = none) :
    ∃ ns : List Numeral, args = ns.map Numeral.value := by
  induction args with
  | nil => exact ⟨[], rfl⟩
  | cons value args ih =>
    rw [List.find?_eq_none] at none ih
    obtain ⟨number, others⟩ := List.forall_mem_cons.1 none
    have number : value.numeral? ≠ .none := by simpa using number
    obtain ⟨n, same⟩ := Option.ne_none_iff_exists'.1 number
    obtain ⟨ns, rfl⟩ := ih others
    exact ⟨n :: ns, by rw [List.map_cons, Value.numeral?_eq_some_iff.1 same]⟩

theorem comparison_eq (b : Builtin) (args : List Value) :
    comparison b args = certain (b.compareChain args) := by
  rw [comparison, Builtin.compareChain]
  cases found : args.find? fun value => value.numeral?.isNone with
  | some other =>
    rw [numerals_eq_error found]
    rfl
  | none =>
    obtain ⟨ns, rfl⟩ := exists_numerals found
    rw [b.numerals_map_value]
    exact pairs_map Numeral.value (holds_eq b) ns

/-- Built-in functions never slip. -/
theorem call_eq (b : Builtin) (args : List Value) : call b args = certain (b.call args) := by
  cases b with
  | add | mul => exact chain_eq _ _ _ _
  | sub | div =>
    rcases args with _ | ⟨value, _ | ⟨second, others⟩⟩
    · rfl
    · exact arith_eq _ _ _ _
    · exact chain_eq _ _ _ _
  | eq =>
    rcases args with _ | ⟨value, others⟩
    · rfl
    · have tested : pairs (fun left right => return left.same right) ((value :: others).map id) =
          pure (.bool (Builtin.neighbours Value.same (value :: others))) :=
        pairs_map id (fun _ _ => rfl) (value :: others)
      rwa [List.map_id] at tested
  | lt | gt | le | ge =>
    rcases args with _ | ⟨value, others⟩
    · rfl
    · exact comparison_eq _ _
  | inc | dec =>
    rcases args with _ | ⟨value, _ | ⟨second, others⟩⟩
    · rfl
    · exact arith_eq _ _ _ _
    · rfl
  | _ => rfl

end Careful

end Stepper.Eval
