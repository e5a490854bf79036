/-
  Decoding of requests.

  A record is given as an object, or as an array of its fields in order.
  `DecodeFault` says what is wrong with a JSON value; the readers here say
  which fault of several counts: fields are looked at in the order in which
  they are given, and absent fields come last.
-/
import Stepper.Json.Reader
import Stepper.Text.Literal

namespace Stepper.Control

open Stepper.Data

/-- What is wrong with a JSON value that should be something else. -/
inductive DecodeFault where
  /-- Not JSON at all. -/
  | notJson
  | wrongType (found : Json) (expected : String)
  | wrongValue (found : Int) (expected : String)
  | missing (field : String)
  | duplicate (field : String)
  | wrongLength (length : Nat) (expected : String)
  | trailing

namespace DecodeFault

/-- How a value is named in errors. -/
def describe : Json → String
  | .null => "null"
  | .bool b => "boolean \x60" ++ (if b then "true" else "false") ++ "\x60"
  | .number (.natural n) => "integer \x60" ++ toString n ++ "\x60"
  | .number (.negative n) => "integer \x60" ++ toString n ++ "\x60"
  | .number (.float x) => "floating point \x60" ++ Number.showScientific x ++ "\x60"
  | .string s => "string " ++ Text.literal s
  | .array _ => "sequence"
  | .object _ => "map"

/-- The wording of a fault.  Two things are left open: what is said of a text
    that is not JSON, for which a fixed text stands, and the place in the text,
    which follows the wording when a whole request is at fault. -/
def message : DecodeFault → String
  | notJson => "<json syntax>"
  | wrongType found expected => "invalid type: " ++ describe found ++ ", expected " ++ expected
  | wrongValue found expected =>
    "invalid value: integer \x60" ++ toString found ++ "\x60, expected " ++ expected
  | missing field => "missing field \x60" ++ field ++ "\x60"
  | duplicate field => "duplicate field \x60" ++ field ++ "\x60"
  | wrongLength length expected =>
    "invalid length " ++ toString length ++ ", expected " ++ expected
  | trailing => "trailing characters"

end DecodeFault

/-- What is decoded, or what is wrong. -/
abbrev Decoded := Except DecodeFault

/-! ## Scalars -/

/-- A string. -/
def asString : Json → Decoded String
  | .string s => .ok s
  | json => .error (.wrongType json "a string")

/-- A truth value. -/
def asBool : Json → Decoded Bool
  | .bool b => .ok b
  | json => .error (.wrongType json "a boolean")

/-- A natural number of 64 bits. -/
def asNatural : Json → Decoded Nat
  | .number (.natural n) => .ok n
  | .number (.negative n) => .error (.wrongValue n "u64")
  | json => .error (.wrongType json "u64")

/-! ## Records -/

/-- How errors name a record with `count` fields. -/
def expectedFields (name : String) (count : Nat) : String :=
  "struct " ++ name ++ " with " ++ toString count
    ++ (if count = 1 then " element" else " elements")

/-- Refuses items beyond the `count` fields of a record. -/
def noMoreItems (count : Nat) (extra : List Json) : Decoded Unit :=
  if extra.isEmpty then .ok () else .error (.wrongLength (count + extra.length) "fewer elements in array")

/-- Looks at the fields of an object in order: those with one of the given
    names must be strings. -/
def checkStrings (names : List String) (object : Json.Object) : Decoded Unit :=
  object.forM fun (name, json) =>
    if names.contains name then (asString json).map fun _ => () else .ok ()

/-- A string under a name. -/
def requiredString (name : String) (object : Json.Object) : Decoded String :=
  match object.find? name with
  | some json => asString json
  | none => .error (.missing name)

/-- A record with one string.  Of fields given twice the last one counts. -/
def asOne (name first : String) : Json → Decoded String
  | .array [] => .error (.wrongLength 0 (expectedFields name 1))
  | .array (a :: extra) => do
    let x ← asString a
    noMoreItems 1 extra
    return x
  | .object fields => do
    let object := Table.insertAll fields []
    checkStrings [first] object
    requiredString first object
  | json => .error (.wrongType json ("struct " ++ name))

/-- A record with two strings.  Of fields given twice the last one counts. -/
def asTwo (name first second : String) : Json → Decoded (String × String)
  | .array [] => .error (.wrongLength 0 (expectedFields name 2))
  | .array [a] => do
    let _ ← asString a
    .error (.wrongLength 1 (expectedFields name 2))
  | .array (a :: b :: extra) => do
    let x ← asString a
    let y ← asString b
    noMoreItems 2 extra
    return (x, y)
  | .object fields => do
    let object := Table.insertAll fields []
    checkStrings [first, second] object
    return (← requiredString first object, ← requiredString second object)
  | json => .error (.wrongType json ("struct " ++ name))

/-- A record with one truth value, false if absent. -/
def asFlag (name first : String) : Json → Decoded Bool
  | .array [] => .ok false
  | .array (a :: extra) => do
    let b ← asBool a
    noMoreItems 1 extra
    return b
  | .object fields =>
    match (Table.insertAll fields []).find? first with
    | some json => asBool json
    | none => .ok false
  | json => .error (.wrongType json ("struct " ++ name))

end Stepper.Control
