/-
  The shortest decimal that reads back as a given float.

  A decimal `d · 10^p` reads back as the float with magnitude `m · 2^k` units
  when it lies between the midpoints to the two neighbouring floats; the
  midpoints themselves belong to the float with the even `m`.  `shortest`
  looks for the coarsest grid `10^p` with a point between them, and takes the
  point of that grid nearest to the float.  Of two points equally near, `Tie`
  says which is taken.
-/
import Stepper.Number.Power

namespace Stepper.Number

/-- The decimal `digits · 10^exponent`. -/
structure Decimal where
  digits : Nat
  exponent : Int
  deriving DecidableEq, Repr

/-- Which of two decimals equally near is taken. -/
inductive Tie where
  | upper
  /-- The one whose last digit is even. -/
  | even
  deriving DecidableEq, Repr

/-- The digits that are taken, of `d` and `d + 1`. -/
def Tie.pick (tie : Tie) (d : Nat) : Nat :=
  match tie with
  | upper => d + 1
  | even => if d % 2 = 0 then d else d + 1

namespace Shortest

/-- A scale on which a float and its two midpoints are whole numbers:
    quarters of a unit, times a power of ten. -/
structure Interval where
  low : Nat
  value : Nat
  high : Nat
  closed : Bool

/-- The numbers that round to `m · 2^k` units, in quarters of a unit.  Below a
    power of two the floats lie twice as close. -/
def interval (m k : Nat) : Interval where
  low := 4 * m * pow2 k - (if m = pow2 52 ∧ 0 < k then pow2 k else 2 * pow2 k)
  value := 4 * m * pow2 k
  high := 4 * m * pow2 k + 2 * pow2 k
  closed := m % 2 = 0

/-- The interval with everything multiplied by `n`. -/
def Interval.scale (i : Interval) (n : Nat) : Interval where
  low := i.low * n
  value := i.value * n
  high := i.high * n
  closed := i.closed

/-- Whether a number lies in the interval. -/
def Interval.contains (i : Interval) (n : Nat) : Bool :=
  (i.low < n && n < i.high) || (i.closed && (n = i.low || n = i.high))

/-- The multiplier of the point nearest to the value among the multiples of
    `step` in the interval. -/
def Interval.nearest? (i : Interval) (tie : Tie) (step : Nat) : Option Nat :=
  let d := i.value / step
  let rest := i.value % step
  let below := i.contains (d * step)
  let above := i.contains ((d + 1) * step)
  match below, above with
  | true, true =>
    some (if 2 * rest < step then d else if step < 2 * rest then d + 1 else tie.pick d)
  | true, false => some d
  | false, true => some (d + 1)
  | false, false => none

/-- The point of the grid `10^p` that reads back, if there is one. -/
def onGrid? (tie : Tie) (m k : Nat) (p : Int) : Option Nat :=
  match p with
  | .ofNat p => (interval m k).nearest? tie (pow10 p * pow2 1076)
  | .negSucc p => ((interval m k).scale (pow10 (p + 1))).nearest? tie (pow2 1076)

/-- Looks through the grids from `10^p` on towards finer ones. -/
def search (tie : Tie) (m k : Nat) : (steps : Nat) → (p : Int) → Option Decimal
  | 0, _ => none
  | steps + 1, p =>
    match onGrid? tie m k p with
    | some d => some ⟨d, p⟩
    | none => search tie m k steps (p - 1)

/-- A power of ten above every number below `m · 2^k` units: three tenths of
    the binary exponent, rounded up. -/
def coarsest (m k : Nat) : Int :=
  ((m.log2 + k : Nat) - 1073 : Int) * 30103 / 100000 + 2

end Shortest

/-- The shortest decimal that reads back as `m · 2^k` units, `0 < m`; the
    nearest of several. -/
def shortest (tie : Tie) (m k : Nat) : Decimal :=
  (Shortest.search tie m k 25 (Shortest.coarsest m k)).getD ⟨0, 0⟩

end Stepper.Number
