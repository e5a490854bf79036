/-
  The built-in functions.

  Arithmetic on integers is exact and reports overflow; as soon as a float
  takes part, it is float arithmetic.  Division of integers stays an integer
  when it is exact.  A chain of arguments is worked off from the left, so the
  first step that fails decides the error.
-/
import Stepper.Number.Integer
import Stepper.Eval.Error

namespace Stepper.Eval

open Stepper.Number (fit?)

/-! ## Numbers -/

/-- A value that is a number. -/
inductive Numeral where
  | int (n : Int64)
  | float (x : Float)

/-- The number nearest to the numeral among the floats. -/
def Numeral.toFloat : Numeral → Float
  | int n => Number.Binary64.ofInt n.toInt
  | float x => x

/-- The value as a number, if it is one. -/
def Value.numeral? : Value → Option Numeral
  | .int n => some (.int n)
  | .float x => some (.float x)
  | _ => none

/-! ## Arithmetic -/

/-- The four arithmetic operations. -/
inductive Arithmetic where
  | add | sub | mul | div
  deriving DecidableEq, Repr

/-- An integer result, unless it does not fit. -/
def checked (n : Int) : Except Error Value :=
  match fit? n with
  | some n => .ok (.int n)
  | none => .error .overflow

/-- The quotient of two integers: an integer when exact, else a float. -/
def divide (a b : Int64) : Except Error Value :=
  if b = 0 then .error .divisionByZero
  else if a.toInt.tmod b.toInt = 0 then checked (a.toInt.tdiv b.toInt)
  else .ok (.float ((Numeral.int a).toFloat / (Numeral.int b).toFloat))

namespace Arithmetic

/-- The operation on integers. -/
def onIntegers (op : Arithmetic) (a b : Int64) : Except Error Value :=
  match op with
  | add => checked (a.toInt + b.toInt)
  | sub => checked (a.toInt - b.toInt)
  | mul => checked (a.toInt * b.toInt)
  | div => divide a b

/-- The operation on floats. -/
def onFloats (op : Arithmetic) (x y : Float) : Float :=
  match op with
  | add => x + y
  | sub => x - y
  | mul => x * y
  | div => x / y

end Arithmetic

namespace Builtin

/-- The error of `b` for an argument of the wrong kind. -/
def mismatch (b : Builtin) (expected : String) (got : Value) : Error :=
  .typeMismatch b expected got.kind

/-- The error of `b` for a wrong number of arguments. -/
def wrongCount (b : Builtin) (expected : ArgumentCount) (args : List Value) : Error :=
  .arity b.name expected args.length

/-- One arithmetic step on behalf of `b`. -/
def arith (b : Builtin) (op : Arithmetic) (left right : Value) : Except Error Value :=
  match left.numeral?, right.numeral? with
  | some (.int a), some (.int c) => op.onIntegers a c
  | some a, some c => .ok (.float (op.onFloats a.toFloat c.toFloat))
  | some _, none => .error (b.mismatch "numbers" right)
  | none, _ => .error (b.mismatch "numbers" left)

/-- Arithmetic from the left, starting with `start`. -/
def chain (b : Builtin) (op : Arithmetic) (start : Value) (args : List Value) :
    Except Error Value :=
  args.foldlM (b.arith op) start

/-- The remainder with the sign of the divisor. -/
def modulo (a b : Int64) : Except Error Value :=
  if b = 0 then .error .divisionByZero
  else if a = Int64.minValue ∧ b.toInt = -1 then .error .overflow
  else
    let r := a.toInt.tmod b.toInt
    checked (if r ≠ 0 ∧ (r < 0) ≠ (b.toInt < 0) then r + b.toInt else r)

/-! ## Comparison -/

/-- How two numbers compare: integers exactly, otherwise as floats, where
    not-a-number compares to nothing. -/
def order? : Numeral → Numeral → Option Ordering
  | .int a, .int b => some (Ord.compare a.toInt b.toInt)
  | a, b =>
    let x := a.toFloat
    let y := b.toFloat
    if x < y then some .lt else if x == y then some .eq else if y < x then some .gt else none

/-- Whether the comparison `b` holds for an order. -/
def holds (b : Builtin) : Ordering → Bool
  | .lt => b == lt || b == le
  | .eq => b == le || b == ge
  | .gt => b == gt || b == ge

/-- Whether a relation holds between all neighbours. -/
def neighbours {α : Type} (related : α → α → Bool) : List α → Bool
  | a :: b :: rest => related a b && neighbours related (b :: rest)
  | _ => true

/-- The arguments as numbers; the first that is none is an error. -/
def numerals (b : Builtin) (args : List Value) : Except Error (List Numeral) :=
  args.mapM fun value =>
    match value.numeral? with
    | some n => .ok n
    | none => .error (b.mismatch "numbers" value)

/-- Whether each argument compares to the next as `b` says. -/
def compareChain (b : Builtin) (args : List Value) : Except Error Value := do
  let numbers ← b.numerals args
  return .bool (neighbours (fun a c => ((order? a c).map b.holds).getD false) numbers)

/-! ## Text and collections -/

/-- What a value contributes to `str`. -/
def plainText : Value → List Char
  | .nil => []
  | .str s => s.toList
  | value => value.chars

/-- The number of items or characters. -/
def size? : Value → Option Nat
  | .nil => some 0
  | .list items | .vector items => some items.length
  | .str s => some s.length
  | _ => none

/-! ## Calls -/

/-- Calls a built-in function. -/
def call (b : Builtin) (args : List Value) : Except Error Value :=
  match b, args with
  | add, args => b.chain .add (.int 0) args
  | mul, args => b.chain .mul (.int 1) args
  | sub, [] | div, [] | eq, [] | lt, [] | gt, [] | le, [] | ge, [] =>
    .error (b.wrongCount (.atLeast 1) [])
  | sub, [value] => b.arith .sub (.int 0) value
  | div, [value] => b.arith .div (.int 1) value
  | sub, first :: rest => b.chain .sub first rest
  | div, first :: rest => b.chain .div first rest
  | mod, [left, right] =>
    match left, right with
    | .int a, .int c => modulo a c
    | .int _, other | other, _ => .error (b.mismatch "integers" other)
  | eq, args => .ok (.bool (neighbours Value.same args))
  | lt, args | gt, args | le, args | ge, args => b.compareChain args
  | not, [value] => .ok (.bool !value.truthy)
  | inc, [value] => b.arith .add value (.int 1)
  | dec, [value] => b.arith .sub value (.int 1)
  | str, args => .ok (.str (String.ofList (args.flatMap plainText)))
  | list, args => .ok (.list args)
  | vector, args => .ok (.vector args)
  | count, [value] =>
    match size? value with
    | some n => checked n
    | none => .error (b.mismatch "a collection" value)
  | mod, args => .error (b.wrongCount (.exactly 2) args)
  | not, args | inc, args | dec, args | count, args => .error (b.wrongCount (.exactly 1) args)

end Builtin

end Stepper.Eval
