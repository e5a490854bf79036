/-
  Reading TOML.

  A document is first cut into statements, and only if all of it is laid out
  well the statements are carried out one after another.  The first fault
  counts.
-/
import Stepper.Config.Toml.Basic
import Stepper.Config.Toml.Word
import Stepper.Config.Toml.Layout

namespace Stepper.Config.Toml

/-- How many keys a dotted key may have in front of its last one. -/
def maxKeyPath : Nat := 79

/-- What must not fail. -/
def wellFormed {α : Type} : Option α → Except Fault α
  | some a => .ok a
  | none => .error .malformed

/-- The names of a key. -/
def DottedKey.names (key : DottedKey) : Except Fault (String × List String) := do
  let first ← wellFormed key.first
  let rest ← key.rest.mapM wellFormed
  if maxKeyPath < rest.length then .error .longKey else .ok (first, rest)

mutual
/-- The value that is written. -/
def ofWritten : Written → Except Fault Toml
  | .text content => (wellFormed content).map .text
  | .word cs => wellFormed (ofWord? cs)
  | .array items => (ofItems items).map .array
  | .table pairs => (ofPairs pairs []).map (.table .inline)

/-- The values of some items. -/
def ofItems : List Written → Except Fault (List Toml)
  | [] => .ok []
  | item :: items => do
    let item ← ofWritten item
    return item :: (← ofItems items)

/-- Adds some pairs to the entries of an inline table. -/
def ofPairs : List (DottedKey × Written) → Entries → Except Fault Entries
  | [], entries => .ok entries
  | (key, value) :: pairs, entries => do
    let (first, rest) ← key.names
    let value ← ofWritten value
    ofPairs pairs (← wellFormed (entries.add first rest value))
end

/-- Carries out statements; `path` leads to the table that pairs belong to. -/
def carryOut : (path : List String) → Entries → List Statement → Except Fault Entries
  | _, entries, [] => .ok entries
  | path, entries, statement :: statements => do
    match statement with
    | .table key =>
      let (first, rest) ← key.names
      let entries ← wellFormed (entries.declare Entries.headerTable first rest)
      carryOut (first :: rest) entries statements
    | .item key =>
      let (first, rest) ← key.names
      let entries ← wellFormed (entries.declare Entries.headerItem first rest)
      carryOut (first :: rest) entries statements
    | .pair key value =>
      let (first, rest) ← key.names
      let value ← ofWritten value
      let entries ← wellFormed (entries.within path fun inner => inner.add first rest value)
      carryOut path entries statements

/-- The table that a document denotes.  A mark of the byte order in front does
    not count. -/
def parse (source : String) : Except Fault Entries := do
  let cs := match source.toList with
    | '\uFEFF' :: cs => cs
    | cs => cs
  carryOut [] [] (← wellFormed (statements? (tokens cs)))

end Stepper.Config.Toml
