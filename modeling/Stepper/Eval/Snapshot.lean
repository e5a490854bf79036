/-
  Bindings in sight.

  Local bindings are kept outermost first.  `lookup?` finds the innermost one
  of a name; a `Snapshot` keeps of each name only that one, in the order in
  which the bindings that remain were made.
-/
import Stepper.Eval.Value

namespace Stepper.Eval

/-- The innermost binding of a name, among bindings given outermost first. -/
def lookup? (name : String) (locals : List Binding) : Option Value :=
  (locals.reverse.find? (·.1 == name)).map (·.2)

/-- Distinct names and their values. -/
structure Snapshot where
  bindings : List Binding
  deriving Inhabited

namespace Snapshot

/-- Adds a binding, which replaces an older one of the same name. -/
def bind (s : Snapshot) (b : Binding) : Snapshot :=
  ⟨s.bindings.filter (·.1 != b.1) ++ [b]⟩

/-- What is in sight of some bindings, outermost first. -/
def capture (locals : List Binding) : Snapshot := locals.foldl bind ⟨[]⟩

/-- The value of a name. -/
def get? (s : Snapshot) (name : String) : Option Value :=
  (s.bindings.find? (·.1 == name)).map (·.2)

/-- The names, in order. -/
def names (s : Snapshot) : List String := s.bindings.map (·.1)

end Snapshot

end Stepper.Eval
