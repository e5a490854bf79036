/-
  How a TOML document is laid out.

  A document is a sequence of statements: headers, and pairs of a key and a
  value.  `statements?` finds them without a look at what strings, words and
  keys mean.  Between brackets and braces lines may end anywhere except inside
  a dotted key.
-/
import Stepper.Config.Toml.Token

namespace Stepper.Config.Toml

/-- A key with the keys that follow it after points; malformed ones are
    `none`. -/
structure DottedKey where
  first : Option String
  rest : List (Option String)

/-- A value as it is written. -/
inductive Written where
  /-- A string, `none` if it is malformed. -/
  | text (content : Option String)
  | word (cs : List Char)
  | array (items : List Written)
  | table (pairs : List (DottedKey × Written))

/-- A statement of a document. -/
inductive Statement where
  /-- The header of a table. -/
  | table (key : DottedKey)
  /-- The header of one more table of an array. -/
  | item (key : DottedKey)
  | pair (key : DottedKey) (value : Written)

/-! Every reader gives what it has read and the tokens that follow, or `none`
when the tokens are not laid out as they should be. -/

namespace Layout

/-- How deep arrays and inline tables may be nested. -/
def maxNesting : Nat := 80

/-- Without blanks in front. -/
def skipBlanks (ts : List Token) : List Token := ts.dropWhile fun
  | .blank _ => true
  | _ => false

/-- Without blanks, comments and line ends in front. -/
def skipLines (ts : List Token) : List Token := ts.dropWhile fun
  | .blank _ | .comment | .lineEnd => true
  | _ => false

/-- The rest of a line that holds nothing more. -/
def lineEnd? (ts : List Token) : Option (List Token) :=
  match skipBlanks ts with
  | [] => some []
  | .comment :: ts | .lineEnd :: ts => some ts
  | _ => none

/-- A mark. -/
def mark? (c : Char) : List Token → Option (List Token)
  | .mark d :: ts => if d = c then some ts else none
  | _ => none

/-! ## Keys -/

/-- Whether a character may stand in a key without marks. -/
def isBare (c : Char) : Bool :=
  ('0' ≤ c && c ≤ '9') || ('A' ≤ c && c ≤ 'Z') || ('a' ≤ c && c ≤ 'z') || c = '_' || c = '-'

/-- A key without points. -/
def name? : List Token → Option (Option String × List Token)
  | .text content threefold :: ts => some (if threefold then none else content, ts)
  | .word cs :: ts => some (if cs.all isBare then some (String.ofList cs) else none, ts)
  | _ => none

/-- A key and the blanks around it; `fuel` bounds its length. -/
def key? : (fuel : Nat) → List Token → Option (DottedKey × List Token)
  | 0, _ => none
  | fuel + 1, ts => do
    let (name, ts) ← name? (skipBlanks ts)
    match skipBlanks ts with
    | .mark '.' :: ts =>
      let (key, ts) ← key? fuel ts
      return (⟨name, key.first :: key.rest⟩, ts)
    | ts => return (⟨name, []⟩, ts)

/-! ## Values -/

/-- The characters of words and points up to another mark; blanks between
    words count. -/
def word : List Token → List Char × List Token
  | .word cs :: ts => let (more, ts) := word ts; (cs ++ more, ts)
  | .mark '.' :: ts => let (more, ts) := word ts; ('.' :: more, ts)
  | .blank bs :: .word cs :: ts => let (more, ts) := word ts; (bs ++ cs ++ more, ts)
  | ts => ([], ts)

mutual
/-- A value; `room` tells how deep collections in it may be nested. -/
def value? : (fuel room : Nat) → List Token → Option (Written × List Token)
  | 0, _, _ => none
  | fuel + 1, room, ts =>
    match ts with
    | .text content _ :: ts => some (.text content, ts)
    | .word _ :: _ | .mark '.' :: _ => let (cs, ts) := word ts; some (.word cs, ts)
    | .mark '[' :: ts =>
      if room = 0 then none
      else (items? fuel (room - 1) ts).map fun (items, ts) => (.array items, ts)
    | .mark '\x7b' :: ts =>
      if room = 0 then none
      else (pairs? fuel (room - 1) ts).map fun (pairs, ts) => (.table pairs, ts)
    | _ => none

/-- The items of an array up to its end. -/
def items? : (fuel room : Nat) → List Token → Option (List Written × List Token)
  | 0, _, _ => none
  | fuel + 1, room, ts =>
    match skipLines ts with
    | .mark ']' :: ts => some ([], ts)
    | ts => do
      let (item, ts) ← value? fuel room ts
      match skipLines ts with
      | .mark ',' :: ts =>
        let (items, ts) ← items? fuel room ts
        return (item :: items, ts)
      | .mark ']' :: ts => return ([item], ts)
      | _ => none

/-- The pairs of an inline table up to its end. -/
def pairs? : (fuel room : Nat) → List Token → Option (List (DottedKey × Written) × List Token)
  | 0, _, _ => none
  | fuel + 1, room, ts =>
    match skipLines ts with
    | .mark '\x7d' :: ts => some ([], ts)
    | ts => do
      let (key, ts) ← key? (fuel + 1) ts
      let (value, ts) ← value? fuel room (skipLines (← mark? '=' (skipLines ts)))
      match skipLines ts with
      | .mark ',' :: ts =>
        let (pairs, ts) ← pairs? fuel room ts
        return ((key, value) :: pairs, ts)
      | .mark '\x7d' :: ts => return ([(key, value)], ts)
      | _ => none
end

/-! ## Documents -/

/-- A statement. -/
def statement? (fuel : Nat) (ts : List Token) : Option (Statement × List Token) :=
  match ts with
  | .mark '[' :: .mark '[' :: ts => do
    let (key, ts) ← key? fuel ts
    return (.item key, ← mark? ']' (← mark? ']' ts))
  | .mark '[' :: ts => do
    let (key, ts) ← key? fuel ts
    return (.table key, ← mark? ']' ts)
  | ts => do
    let (key, ts) ← key? fuel ts
    let (value, ts) ← value? fuel maxNesting (skipBlanks (← mark? '=' ts))
    return (.pair key value, ts)

/-- Statements up to the end of the text, each on lines of its own. -/
def statements? : (fuel : Nat) → List Token → Option (List Statement)
  | 0, _ => none
  | fuel + 1, ts =>
    match skipLines ts with
    | [] => some []
    | ts => do
      let (statement, ts) ← statement? (2 * ts.length) ts
      return statement :: (← statements? fuel (← lineEnd? ts))

end Layout

/-- The statements of a document. -/
def statements? (ts : List Token) : Option (List Statement) := Layout.statements? (ts.length + 1) ts

end Stepper.Config.Toml
