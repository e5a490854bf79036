/-
  Floats in exact arithmetic.

  Every finite float is a whole number of units of 2⁻¹⁰⁷⁴: its magnitude is
  `m · 2^k` units with `m < 2^53`, and `m ≥ 2^52` whenever `k > 0`.  `parts`
  takes a float apart into this form.  `ofRatio` goes back: it rounds a
  quotient of natural numbers to the nearest float, a tie to the even one.
-/
import Stepper.Number.Power

namespace Stepper.Number

/-- A float taken apart. -/
inductive Parts where
  | nan
  | infinite (negative : Bool)
  /-- The magnitude is `m · 2^k` units of 2⁻¹⁰⁷⁴. -/
  | finite (negative : Bool) (m k : Nat)
  deriving DecidableEq, Repr

namespace Binary64

/-- The bit pattern of positive infinity; those of the finite magnitudes are
    below it. -/
def infinityBits : Nat := 2047 * pow2 52

/-- The parts of the float with the given magnitude bits. -/
def partsOfBits (negative : Bool) (bits : Nat) : Parts :=
  if infinityBits < bits then .nan
  else if bits = infinityBits then .infinite negative
  else if bits < pow2 52 then .finite negative bits 0
  else
    let k := bits / pow2 52 - 1
    .finite negative (bits - k * pow2 52) k

/-- Takes a float apart. -/
def parts (x : Float) : Parts :=
  let bits := x.toBits.toNat
  partsOfBits (pow2 63 ≤ bits) (bits % pow2 63)

/-- The quotient rounded to the nearest natural number, a tie to the even
    one. -/
def roundDiv (num den : Nat) : Nat :=
  let q := num / den
  let r := num % den
  if 2 * r < den then q
  else if den < 2 * r then q + 1
  else if q % 2 = 0 then q else q + 1

/-- The magnitude bits of the float nearest to `num / den`. -/
def bitsOfRatio (num den : Nat) : Nat :=
  let units := num * pow2 1074
  let k := (units / den).log2 - 52
  min (k * pow2 52 + roundDiv units (den * pow2 k)) infinityBits

/-- The float with the given sign and magnitude bits. -/
def ofBits (negative : Bool) (bits : Nat) : Float :=
  Float.ofBits (UInt64.ofNat (bits + if negative then pow2 63 else 0))

/-- The float nearest to `± num / den`. -/
def ofRatio (negative : Bool) (num den : Nat) : Float :=
  ofBits negative (bitsOfRatio num den)

/-- The float nearest to an integer. -/
def ofInt (n : Int) : Float := ofRatio (n < 0) n.natAbs 1

end Binary64

end Stepper.Number
