/-
  TOML values.

  Tables, arrays, strings and integers are kept apart, which is what a
  configuration is made of; all else is `other`.  A table can be given under a
  header, by dotted keys or inline, and only in one of these ways; no key is
  given twice.  The operations on `Entries` give nothing when that is broken.
-/
namespace Stepper.Config

/-- How a table came to be. -/
inductive Origin where
  /-- By its own header. -/
  | header
  /-- By the header of a table inside it. -/
  | implied
  /-- By a dotted key. -/
  | dotted
  /-- Between braces. -/
  | inline
  deriving DecidableEq, Repr

/-- A TOML value. -/
inductive Toml where
  | text (s : String)
  | integer (n : Int)
  /-- A truth value, a float or a time, or an integer without a value. -/
  | other
  | array (items : List Toml)
  | table (origin : Origin) (entries : List (String × Toml))
  /-- An array of tables under headers of their own: the last one and those
      before it. -/
  | tables (last : List (String × Toml)) (before : List (List (String × Toml)))
  deriving Inhabited

/-- Why a text is no document. -/
inductive Toml.Fault where
  | malformed
  /-- A dotted key is too long. -/
  | longKey
  deriving DecidableEq, Repr

/-- The entries of a table, in the order of the text. -/
abbrev Entries := List (String × Toml)

namespace Entries

/-- The value of a key. -/
def find? (key : String) (entries : Entries) : Option Toml :=
  (List.find? (·.1 == key) entries).map (·.2)

/-- Gives a key a value. -/
def put (key : String) (value : Toml) (entries : Entries) : Entries :=
  if (find? key entries).isSome then
    entries.map fun (k, v) => if k = key then (k, value) else (k, v)
  else entries ++ [(key, value)]

/-- Adds a value under a key, which is dotted if `keys` is not empty. -/
def add (key : String) (keys : List String) (value : Toml) (entries : Entries) :
    Option Entries :=
  match keys with
  | [] => if (find? key entries).isSome then none else some (put key value entries)
  | next :: keys =>
    match find? key entries with
    | none => do return put key (.table .dotted (← add next keys value [])) entries
    | some (.table origin inner) =>
      if origin = .dotted ∨ (origin = .implied ∧ !keys.isEmpty) then do
        return put key (.table origin (← add next keys value inner)) entries
      else none
    | some (.tables last before) =>
      if keys.isEmpty then none
      else do return put key (.tables (← add next keys value last) before) entries
    | some _ => none

/-- Applies a change to the table at a path, which has been made before. -/
def within (path : List String) (change : Entries → Option Entries) (entries : Entries) :
    Option Entries :=
  match path with
  | [] => change entries
  | key :: path =>
    match find? key entries with
    | some (.table origin inner) => do
      return put key (.table origin (← within path change inner)) entries
    | some (.tables last before) => do
      return put key (.tables (← within path change last) before) entries
    | _ => none

/-- Makes what a header asks for; `make` gives it from what is there. -/
def declare (make : Option Toml → Option Toml) (key : String) (keys : List String)
    (entries : Entries) : Option Entries :=
  match keys with
  | [] => do return put key (← make (find? key entries)) entries
  | next :: keys =>
    match find? key entries with
    | none => do return put key (.table .implied (← declare make next keys [])) entries
    | some (.table .inline _) => none
    | some (.table origin inner) => do
      return put key (.table origin (← declare make next keys inner)) entries
    | some (.tables last before) => do
      return put key (.tables (← declare make next keys last) before) entries
    | some _ => none

/-- The table of a header: a new one, or one implied so far. -/
def headerTable : Option Toml → Option Toml
  | none => some (.table .header [])
  | some (.table .implied inner) => some (.table .header inner)
  | some _ => none

/-- One more table of an array of tables. -/
def headerItem : Option Toml → Option Toml
  | none => some (.tables [] [])
  | some (.tables last before) => some (.tables [] (last :: before))
  | some _ => none

end Entries

end Stepper.Config
