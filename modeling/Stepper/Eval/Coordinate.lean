/-
  Coordinates of forms.

  A coordinate is the way from a top-level form down to one inside it: child
  `i` of the form at `p` is at `p` with `i` appended.  Steps are 32-bit
  numbers; larger positions share the greatest one.
-/
namespace Stepper.Eval

/-- A position in a top-level form. -/
structure Coordinate where
  path : List UInt32
  deriving DecidableEq, Repr

namespace Coordinate

/-- The top-level form itself. -/
def root : Coordinate := ⟨[]⟩

/-- The step to the child with the given position. -/
def stepTo (position : Nat) : UInt32 := UInt32.ofNat (min position (UInt32.size - 1))

/-- The child with the given position. -/
def child (c : Coordinate) (position : Nat) : Coordinate := ⟨c.path ++ [stepTo position]⟩

/-- The form around; the root is its own parent. -/
def parent (c : Coordinate) : Coordinate := ⟨c.path.dropLast⟩

/-- Whether `c` is a form properly around `d`. -/
def isAbove (c d : Coordinate) : Bool :=
  c.path.length < d.path.length && c.path.isPrefixOf d.path

/-- Lexicographic order. -/
def compare (c d : Coordinate) : Ordering := compareLex c.path d.path
where
  /-- Shorter first among coordinates that agree as far as they go. -/
  compareLex : List UInt32 → List UInt32 → Ordering
    | [], [] => .eq
    | [], _ :: _ => .lt
    | _ :: _, [] => .gt
    | a :: as, b :: bs => (Ord.compare a b).then (compareLex as bs)

/-- The steps between square brackets. -/
def print (c : Coordinate) : String :=
  "[" ++ " ".intercalate (c.path.map fun step => toString step.toNat) ++ "]"

end Coordinate

end Stepper.Eval
