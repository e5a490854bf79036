/-
  Forms: what the reader makes of a source.

  `tagged` is the breakpoint tag `#break`; it wraps the form after it and
  takes no position of its own, which `untagged` strips from the outside of a
  form.
-/
namespace Stepper.Syntax

/-- A form of the expression language. -/
inductive Form where
  | nil
  | bool (b : Bool)
  | int (n : Int64)
  | float (x : Float)
  | str (s : String)
  | symbol (name : String)
  | list (items : List Form)
  | vector (items : List Form)
  /-- A form under the breakpoint tag. -/
  | tagged (form : Form)
  deriving Inhabited

namespace Form

/-- The name, of a symbol that bears no tag. -/
def symbol? : Form → Option String
  | symbol name => some name
  | _ => none

/-- The form without the tags around it. -/
def untagged : Form → Form
  | tagged form => form.untagged
  | form => form

/-- The items of a vector, seen through the tags around it. -/
def vector? (form : Form) : Option (List Form) :=
  match form.untagged with
  | vector items => some items
  | _ => none

mutual
/-- The number of breakpoint tags in the form. -/
def tagCount : Form → Nat
  | tagged form => form.tagCount + 1
  | list items | vector items => tagCountAll items
  | _ => 0

/-- The number of breakpoint tags in some forms. -/
def tagCountAll : List Form → Nat
  | [] => 0
  | form :: forms => form.tagCount + tagCountAll forms
end

end Form

end Stepper.Syntax
