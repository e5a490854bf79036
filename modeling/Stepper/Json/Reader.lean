/-
  Reading JSON.

  `Json.parse?` reads a text that holds one value and nothing else but blanks.
  Objects keep all their fields in the order of the text, also repeated ones.
  Collections may be nested `maxNesting` deep.
-/
import Stepper.Json.Basic

namespace Stepper.Json

open Stepper.Number (naturalOf digitValue pow10)
open Stepper.Number.Binary64 (ofInt)

/-! Every reader gives what it has read and what is left of the text, or `none`
when the text is not JSON. -/

namespace Reader

/-- The deepest nesting of collections. -/
def maxNesting : Nat := 127

/-- The blank characters of JSON. -/
def isBlank (c : Char) : Bool := c ∈ [' ', '\n', '\t', '\r']

/-- Without the blanks in front. -/
def skipBlanks (cs : List Char) : List Char := cs.dropWhile isBlank

/-! ## Strings -/

/-- The value of a hexadecimal digit. -/
def hexValue? (c : Char) : Option Nat :=
  if '0' ≤ c ∧ c ≤ '9' then some (c.toNat - '0'.toNat)
  else if 'a' ≤ c ∧ c ≤ 'f' then some (c.toNat - 'a'.toNat + 10)
  else if 'A' ≤ c ∧ c ≤ 'F' then some (c.toNat - 'A'.toNat + 10)
  else none

/-- The number that four hexadecimal digits denote. -/
def unit? (a b c d : Char) : Option Nat := do
  return (((← hexValue? a) * 16 + (← hexValue? b)) * 16 + (← hexValue? c)) * 16 + (← hexValue? d)

/-- The character of a code unit that is no surrogate. -/
def single? (unit : Nat) : Option Char :=
  if 0xD800 ≤ unit ∧ unit < 0xE000 then none else some (Char.ofNat unit)

/-- The character of a pair of surrogates. -/
def pair? (high low : Nat) : Option Char :=
  if 0xD800 ≤ high ∧ high < 0xDC00 ∧ 0xDC00 ≤ low ∧ low < 0xE000 then
    some (Char.ofNat (0x10000 + (high - 0xD800) * 0x400 + (low - 0xDC00)))
  else none

/-- The character of an escape with one letter. -/
def letterEscape? : Char → Option Char
  | '"' => some '"'
  | '\\' => some '\\'
  | '/' => some '/'
  | 'b' => some '\x08'
  | 'f' => some '\x0c'
  | 'n' => some '\n'
  | 'r' => some '\r'
  | 't' => some '\t'
  | _ => none

/-- One more character in front. -/
def prepend (c : Char) : Option (List Char × List Char) → Option (List Char × List Char) :=
  Option.map fun (cs, rest) => (c :: cs, rest)

/-- The characters of a string up to the closing quotation mark. -/
def stringBody : List Char → Option (List Char × List Char)
  | [] => none
  | '"' :: cs => some ([], cs)
  | '\\' :: 'u' :: a :: b :: c :: d :: cs =>
    match unit? a b c d with
    | none => none
    | some unit =>
      match single? unit with
      | some ch => prepend ch (stringBody cs)
      | none =>
        match cs with
        | '\\' :: 'u' :: e :: f :: g :: h :: cs =>
          match (unit? e f g h).bind (pair? unit) with
          | some ch => prepend ch (stringBody cs)
          | none => none
        | _ => none
  | '\\' :: c :: cs =>
    match letterEscape? c with
    | some ch => prepend ch (stringBody cs)
    | none => none
  | c :: cs => if c.toNat < 0x20 ∨ c = '\\' then none else prepend c (stringBody cs)

/-- A string after its opening quotation mark. -/
def string (cs : List Char) : Option (String × List Char) :=
  (stringBody cs).map fun (s, rest) => (String.ofList s, rest)

/-! ## Numbers -/

/-- One or more digits. -/
def digits (cs : List Char) : Option (List Char × List Char) :=
  let ds := cs.takeWhile Char.isDigit
  if ds.isEmpty then none else some (ds, cs.dropWhile Char.isDigit)

/-- The digits before the point: no zero in front of others. -/
def wholePart (cs : List Char) : Option (List Char × List Char) :=
  match cs with
  | '0' :: c :: _ => if c.isDigit then none else some (['0'], cs.tail)
  | _ => digits cs

/-- The digits after the point; none if there is no point. -/
def fraction (cs : List Char) : Option (Option (List Char) × List Char) :=
  match cs with
  | '.' :: cs => (digits cs).map fun (ds, rest) => (some ds, rest)
  | _ => some (none, cs)

/-- The exponent; none if there is none. -/
def exponent (cs : List Char) : Option (Option Int × List Char) :=
  match cs with
  | c :: cs' =>
    if c = 'e' ∨ c = 'E' then
      let (negative, cs') := match cs' with
        | '-' :: cs => (true, cs)
        | '+' :: cs => (false, cs)
        | cs => (false, cs)
      (digits cs').map fun (ds, rest) =>
        let n : Int := naturalOf ds
        (some (if negative then -n else n), rest)
    else some (none, cs)
  | [] => some (none, [])

/-- Digits joined to a number for as long as it fits into 64 bits, and how
    many digits are left over. -/
def joinDigits (n : Nat) : List Char → Nat × Nat
  | [] => (n, 0)
  | d :: ds =>
    let next := 10 * n + digitValue d
    if next < UInt64.size then joinDigits next ds else (n, ds.length + 1)

/-- The greatest power of ten among the floats. -/
def maxPower : Nat := 308

/-- The float nearest to a power of ten. -/
def power (e : Nat) : Float := ofInt (pow10 e)

/-- `x / 10^e` in steps of at most `maxPower`, each of them rounded. -/
def shrink : (steps : Nat) → Float → (e : Nat) → Float
  | 0, x, _ => x
  | steps + 1, x, e =>
    if e ≤ maxPower then x / power e else shrink steps (x / power maxPower) (e - maxPower)

/-- `x · 10^e`, which must be finite.  Three steps take every `x` below 2^64
    down to zero. -/
def scaled? (x : Float) (e : Int) : Option Float :=
  if e < 0 then some (shrink 3 x (-e).toNat)
  else if maxPower < e then if x == 0 then some x else none
  else
    let y := x * power e.toNat
    if y.isInf then none else some y

/-- The float with the given parts: the leading digits that fit into 64 bits,
    scaled. -/
def floatOf? (negative : Bool) (whole frac : List Char) (exp : Int) : Option Number := do
  let (n, leftWhole) := joinDigits 0 whole
  let (n, leftFrac) := joinDigits n frac
  let x ← scaled? (ofInt n) (exp + leftWhole - (frac.length - leftFrac))
  return .float (if negative then -x else x)

/-- The number with the given parts. -/
def numberOf (negative : Bool) (whole : List Char) (frac : Option (List Char))
    (exp : Option Int) : Option Number :=
  let n := naturalOf whole
  let isWhole := frac.isNone && exp.isNone
  if isWhole && !negative && n < UInt64.size then some (.natural n)
  else if isWhole && negative && 0 < n && Int64.minValue.toInt ≤ -(n : Int) then some (.negative (-(n : Int)))
  else floatOf? negative whole (frac.getD []) (exp.getD 0)

/-- A number. -/
def number (cs : List Char) : Option (Number × List Char) := do
  let (negative, cs) := match cs with
    | '-' :: cs => (true, cs)
    | cs => (false, cs)
  let (whole, cs) ← wholePart cs
  let (frac, cs) ← fraction cs
  let (exp, cs) ← exponent cs
  return (← numberOf negative whole frac exp, cs)

/-! ## Values -/

/-- A character and the blanks before it. -/
def expect (c : Char) (cs : List Char) : Option (List Char) :=
  match skipBlanks cs with
  | c' :: cs => if c' = c then some cs else none
  | [] => none

/-- A given word. -/
def word (w : List Char) (value : Json) (cs : List Char) : Option (Json × List Char) :=
  if w.isPrefixOf cs then some (value, cs.drop w.length) else none

mutual
/-- A value with `room` levels of nesting left; `fuel` bounds the length of
    collections. -/
def value : (fuel room : Nat) → List Char → Option (Json × List Char)
  | 0, _, _ => none
  | fuel + 1, room, cs =>
    match skipBlanks cs with
    | 'n' :: cs => word ['u', 'l', 'l'] .null cs
    | 't' :: cs => word ['r', 'u', 'e'] (.bool true) cs
    | 'f' :: cs => word ['a', 'l', 's', 'e'] (.bool false) cs
    | '"' :: cs => (string cs).map fun (s, rest) => (.string s, rest)
    | '[' :: cs =>
      if room = 0 then none
      else match skipBlanks cs with
        | ']' :: cs => some (.array [], cs)
        | _ => (items fuel (room - 1) cs).map fun (items, rest) => (.array items, rest)
    | '\x7b' :: cs =>
      if room = 0 then none
      else match skipBlanks cs with
        | '\x7d' :: cs => some (.object [], cs)
        | _ => (fields fuel (room - 1) cs).map fun (fields, rest) => (.object fields, rest)
    | cs => (number cs).map fun (n, rest) => (.number n, rest)

/-- The items of an array up to its end. -/
def items : (fuel room : Nat) → List Char → Option (List Json × List Char)
  | 0, _, _ => none
  | fuel + 1, room, cs => do
    let (item, cs) ← value fuel room cs
    match skipBlanks cs with
    | ',' :: cs =>
      let (rest, cs) ← items fuel room cs
      return (item :: rest, cs)
    | ']' :: cs => return ([item], cs)
    | _ => none

/-- The fields of an object up to its end. -/
def fields : (fuel room : Nat) → List Char → Option (List (String × Json) × List Char)
  | 0, _, _ => none
  | fuel + 1, room, cs => do
    let (name, cs) ← string (← expect '"' cs)
    let (field, cs) ← value fuel room (← expect ':' cs)
    match skipBlanks cs with
    | ',' :: cs =>
      let (rest, cs) ← fields fuel room cs
      return ((name, field) :: rest, cs)
    | '\x7d' :: cs => return ([(name, field)], cs)
    | _ => none
end

end Reader

/-- The value that a text denotes. -/
def parse? (text : String) : Option Json :=
  let cs := text.toList
  match Reader.value (cs.length + 1) Reader.maxNesting cs with
  | some (json, rest) => if (Reader.skipBlanks rest).isEmpty then some json else none
  | none => none

end Stepper.Json
