/-
  Skipping JSON.

  A value that nobody asks for is skipped.  It has to follow the grammar of
  JSON, and that is all: it may be nested to any depth, its numbers may be too
  large for floats, and its strings may hold single surrogates.

  `Json.fieldsNamed?` reads an object of which only some fields are wanted.
-/
import Stepper.Json.Reader

namespace Stepper.Json

/-! Every function here gives what is left of the text after what it skips, or
`none` when the text breaks the grammar. -/

namespace Skip

open Reader (skipBlanks expect unit? letterEscape? wholePart fraction exponent)

/-- A string after its opening quotation mark. -/
def string : List Char → Option (List Char)
  | [] => none
  | '"' :: cs => some cs
  | '\\' :: 'u' :: a :: b :: c :: d :: cs =>
    if (unit? a b c d).isSome then string cs else none
  | '\\' :: c :: cs => if (letterEscape? c).isSome then string cs else none
  | c :: cs => if c.toNat < 0x20 ∨ c = '\\' then none else string cs

/-- A number. -/
def number (cs : List Char) : Option (List Char) := do
  let cs := match cs with
    | '-' :: cs => cs
    | cs => cs
  let (_, cs) ← wholePart cs
  let (_, cs) ← fraction cs
  let (_, cs) ← exponent cs
  return cs

/-- A given word. -/
def word (w : List Char) (cs : List Char) : Option (List Char) :=
  if w.isPrefixOf cs then some (cs.drop w.length) else none

mutual
/-- A value; `fuel` bounds its length. -/
def value : (fuel : Nat) → List Char → Option (List Char)
  | 0, _ => none
  | fuel + 1, cs =>
    match skipBlanks cs with
    | 'n' :: cs => word ['u', 'l', 'l'] cs
    | 't' :: cs => word ['r', 'u', 'e'] cs
    | 'f' :: cs => word ['a', 'l', 's', 'e'] cs
    | '"' :: cs => string cs
    | '[' :: cs =>
      match skipBlanks cs with
      | ']' :: cs => some cs
      | _ => items fuel cs
    | '\x7b' :: cs =>
      match skipBlanks cs with
      | '\x7d' :: cs => some cs
      | _ => fields fuel cs
    | cs => number cs

/-- The items of an array up to its end. -/
def items : (fuel : Nat) → List Char → Option (List Char)
  | 0, _ => none
  | fuel + 1, cs => do
    match skipBlanks (← value fuel cs) with
    | ',' :: cs => items fuel cs
    | ']' :: cs => some cs
    | _ => none

/-- The fields of an object up to its end. -/
def fields : (fuel : Nat) → List Char → Option (List Char)
  | 0, _ => none
  | fuel + 1, cs => do
    let cs ← string (← expect '"' cs)
    match skipBlanks (← value fuel (← expect ':' cs)) with
    | ',' :: cs => fields fuel cs
    | '\x7d' :: cs => some cs
    | _ => none
end

end Skip

open Reader (skipBlanks expect maxNesting)

/-- The value of a field, if it is wanted, and what is left of the text. -/
def Reader.fieldIf (wanted : Bool) (fuel : Nat) (cs : List Char) : Option (Option Json × List Char) :=
  if wanted then (value fuel (maxNesting - 1) cs).map fun (field, rest) => (some field, rest)
  else (Skip.value fuel cs).map fun rest => (none, rest)

/-- The fields of an object up to its end, without those whose names are not
    wanted. -/
def Reader.fieldsNamed (names : List String) :
    (fuel : Nat) → List Char → Option (List (String × Json) × List Char)
  | 0, _ => none
  | fuel + 1, cs => do
    let (name, cs) ← string (← expect '"' cs)
    let (field, cs) ← fieldIf (names.contains name) fuel (← expect ':' cs)
    let front := field.toList.map fun field => (name, field)
    match skipBlanks cs with
    | ',' :: cs =>
      let (rest, cs) ← fieldsNamed names fuel cs
      return (front ++ rest, cs)
    | '\x7d' :: cs => return (front, cs)
    | _ => none

/-- The fields with some names of the object that a text denotes; the others
    are skipped. -/
def fieldsNamed? (names : List String) (text : String) : Option (List (String × Json)) := do
  let cs := text.toList
  let (fields, rest) ← Reader.fieldsNamed names (cs.length + 1) (← expect '\x7b' cs)
  if (skipBlanks rest).isEmpty then some fields else none

end Stepper.Json
