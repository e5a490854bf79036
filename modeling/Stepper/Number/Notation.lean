/-
  Numbers as text.

  * `Decimal.positional` writes digits with a point and no exponent, however
    long that gets; `Decimal.scientific` writes an exponent outside a middle
    range;
  * `showFloat` is how the language prints a float: whole numbers below 10^16
    with `.0`, others with the fewest digits that read back, never with an
    exponent;
  * `readInteger?` and `readFloat?` read the literals of the language.
-/
import Stepper.Number.Integer
import Stepper.Number.Binary64
import Stepper.Number.Shortest

namespace Stepper.Number

/-! ## Writing -/

/-- The decimal digits of a number, without leading zeros. -/
def digitsOf (n : Nat) : List Char := Nat.toDigits 10 n

/-- A row of zeros. -/
def zeros (n : Nat) : List Char := List.replicate n '0'

/-- `digits` with a point after the first `point` places, filled up with
    zeros on the left or on the right where the point lies outside; no point
    for a whole number. -/
def pointed (digits : List Char) (point : Int) : List Char :=
  if point ≤ 0 then '0' :: '.' :: zeros (-point).toNat ++ digits
  else if point < digits.length then
    digits.take point.toNat ++ '.' :: digits.drop point.toNat
  else digits ++ zeros (point.toNat - digits.length)

/-- The digits of a decimal in their places, without an exponent. -/
def Decimal.positional (d : Decimal) : List Char :=
  let digits := digitsOf d.digits
  pointed digits (digits.length + d.exponent)

/-- The decimal with a point at all events, and with an exponent when it is
    1e16 or above, or below 1e-5. -/
def Decimal.scientific (d : Decimal) : List Char :=
  let digits := digitsOf d.digits
  let point := digits.length + d.exponent
  if -5 < point ∧ point ≤ 16 then
    pointed digits point ++ if digits.length ≤ point then ['.', '0'] else []
  else
    let sign := if 0 ≤ point - 1 then '+' else '-'
    let exponent := 'e' :: sign :: digitsOf (point - 1).natAbs
    match digits with
    | [] => exponent
    | [c] => c :: exponent
    | c :: cs => c :: '.' :: cs ++ exponent

/-- The whole number that `m · 2^k` units of 2⁻¹⁰⁷⁴ make, if they make one. -/
def whole? (m k : Nat) : Option Nat :=
  if m * pow2 k % pow2 1074 = 0 then some (m * pow2 k / pow2 1074) else none

/-- The text of a magnitude in the language. -/
def showMagnitude (m k : Nat) : List Char :=
  match whole? m k with
  | some n =>
    if n < pow10 16 then digitsOf n ++ ['.', '0'] else (shortest .upper m k).positional
  | none => (shortest .upper m k).positional

/-- A minus sign for negative numbers. -/
def signed (negative : Bool) (text : List Char) : List Char :=
  if negative then '-' :: text else text

/-- The text of a float in the language. -/
def showFloat (x : Float) : String :=
  match Binary64.parts x with
  | .nan => "NaN"
  | .infinite negative => String.ofList (signed negative ['i', 'n', 'f'])
  | .finite negative m k => String.ofList (signed negative (showMagnitude m k))

/-- The text of a finite float with an exponent where it is very large or very
    small. -/
def showScientific (x : Float) : String :=
  match Binary64.parts x with
  | .nan => "NaN"
  | .infinite negative => String.ofList (signed negative ['i', 'n', 'f'])
  | .finite negative m k =>
    String.ofList (signed negative (if m = 0 then ['0', '.', '0'] else (shortest .even m k).scientific))

/-! ## Reading -/

/-- The value of a decimal digit. -/
def digitValue (c : Char) : Nat := c.toNat - '0'.toNat

/-- The number that a row of digits denotes. -/
def naturalOf (digits : List Char) : Nat :=
  digits.foldl (fun n c => 10 * n + digitValue c) 0

/-- Splits off a minus sign. -/
def splitSign : List Char → Bool × List Char
  | '-' :: cs => (true, cs)
  | cs => (false, cs)

/-- The float nearest to `± digits · 10^exponent`.  Exponents far outside the
    range of the floats are cut short. -/
def floatOfDecimal (negative : Bool) (d : Decimal) : Float :=
  if d.digits = 0 then Binary64.ofBits negative 0
  else
    let places := (digitsOf d.digits).length + d.exponent
    if 310 < places then Binary64.ofBits negative Binary64.infinityBits
    else if places < -330 then Binary64.ofBits negative 0
    else match d.exponent with
      | .ofNat e => Binary64.ofRatio negative (d.digits * pow10 e) 1
      | .negSucc e => Binary64.ofRatio negative d.digits (pow10 (e + 1))

/-- An optionally negative row of digits, if it is a 64-bit integer. -/
def readInteger? (text : List Char) : Option Int64 :=
  let (negative, digits) := splitSign text
  let n : Int := naturalOf digits
  if digits.isEmpty || !digits.all Char.isDigit then none
  else fit? (if negative then -n else n)

/-- The exponent part of a float: nothing, or `e` and an optionally signed row
    of digits. -/
def readExponent? : List Char → Option Int
  | [] => some 0
  | c :: cs =>
    let (negative, digits) := match cs with
      | '-' :: ds => (true, ds)
      | '+' :: ds => (false, ds)
      | ds => (false, ds)
    let n : Int := naturalOf digits
    if (c == 'e' || c == 'E') && !digits.isEmpty && digits.all Char.isDigit then
      some (if negative then -n else n)
    else none

/-- An optional minus sign, digits with a point among them, and an optional
    exponent: the nearest float. -/
def readFloat? (text : List Char) : Option Float :=
  let (negative, rest) := splitSign text
  let before := rest.takeWhile Char.isDigit
  match rest.dropWhile Char.isDigit with
  | '.' :: rest =>
    let after := rest.takeWhile Char.isDigit
    if before.isEmpty || after.isEmpty then none
    else (readExponent? (rest.dropWhile Char.isDigit)).map fun e =>
      floatOfDecimal negative ⟨naturalOf (before ++ after), e - after.length⟩
  | _ => none

end Stepper.Number
