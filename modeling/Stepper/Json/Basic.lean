/-
  JSON values and their text on one line.

  The fields of an object are kept in the order in which they are written; a
  `Json.Object` keeps them in the order of their names, which is how the
  messages of the server are written.  In strings only quotation marks,
  backslashes and control characters are escaped.
-/
import Stepper.Data.Table
import Stepper.Number.Notation

namespace Stepper

open Stepper.Data (Table)

/-- A number as it was written: whole numbers that fit into 64 bits keep their
    value, all others are floats. -/
inductive Json.Number where
  | natural (n : Nat)
  | negative (n : Int)
  | float (x : Float)

/-- A JSON value. -/
inductive Json where
  | null
  | bool (b : Bool)
  | number (n : Json.Number)
  | string (s : String)
  | array (items : List Json)
  | object (fields : List (String × Json))
  deriving Inhabited

/-- The fields of an object under construction, in the order of their names. -/
abbrev Json.Object := Table Json

namespace Json

/-- A natural number. -/
def nat (n : Nat) : Json := number (.natural n)

/-- An array of strings. -/
def strings (items : List String) : Json := array (items.map string)

/-! ## Writing -/

/-- A digit of a base up to sixteen, in lower case. -/
def hexDigit (n : Nat) : Char := Nat.digitChar n

/-- A character inside a string. -/
def escape (c : Char) : List Char :=
  match c with
  | '"' => ['\\', '"']
  | '\\' => ['\\', '\\']
  | '\n' => ['\\', 'n']
  | '\r' => ['\\', 'r']
  | '\t' => ['\\', 't']
  | '\x08' => ['\\', 'b']
  | '\x0c' => ['\\', 'f']
  | c =>
    if c.toNat < 0x20 then
      ['\\', 'u', '0', '0', hexDigit (c.toNat / 16), hexDigit (c.toNat % 16)]
    else [c]

/-- A string with its quotation marks. -/
def quoted (s : String) : List Char := '"' :: s.toList.flatMap escape ++ ['"']

/-- The text of a number. -/
def Number.chars : Number → List Char
  | natural n => Stepper.Number.digitsOf n
  | negative n => Stepper.Number.signed (n < 0) (Stepper.Number.digitsOf n.natAbs)
  | float x => (Stepper.Number.showScientific x).toList

mutual
/-- The text of a value, without blanks. -/
def chars : Json → List Char
  | null => ['n', 'u', 'l', 'l']
  | bool true => ['t', 'r', 'u', 'e']
  | bool false => ['f', 'a', 'l', 's', 'e']
  | number n => n.chars
  | string s => quoted s
  | array items => '[' :: [','].intercalate (charsEach items) ++ [']']
  | object fields => '\x7b' :: [','].intercalate (charsFields fields) ++ ['\x7d']

/-- The texts of some values. -/
def charsEach : List Json → List (List Char)
  | [] => []
  | value :: values => value.chars :: charsEach values

/-- The texts of some fields. -/
def charsFields : List (String × Json) → List (List Char)
  | [] => []
  | (name, value) :: fields => (quoted name ++ ':' :: value.chars) :: charsFields fields
end

/-- The text of a value. -/
def print (value : Json) : String := String.ofList value.chars

end Json

end Stepper
