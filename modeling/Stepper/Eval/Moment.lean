/-
  Moments of an evaluation.

  Where a coordinate says which form is evaluated, a moment says which of its
  evaluations is meant: it leads from the start of the program through the
  calls in progress.  No two evaluations of one program happen at the same
  moment, so the moment at which a function was made is its identity.
-/
namespace Stepper.Eval

/-- One step from an evaluation to one that is part of it. -/
inductive Step where
  /-- A top-level form of a program. -/
  | form (position : Nat)
  /-- An item of a list or vector. -/
  | item (position : Nat)
  /-- The value in a pair of a binding vector. -/
  | binding (position : Nat)
  /-- A form in the body of the function that is called. -/
  | body (position : Nat)
  /-- An expression that a client gives at a breakpoint. -/
  | reply
  /-- A value handed in from outside the program. -/
  | given (position : Nat)
  deriving DecidableEq, Repr

/-- The steps to an evaluation, last one first. -/
abbrev Moment := List Step

end Stepper.Eval
