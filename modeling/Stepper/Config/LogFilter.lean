/-
  Log filters.

  A filter is a list of directives with commas between them.  A directive is
  a level, or says for a target, for spans, or for both, which level they
  have.
-/
namespace Stepper.Config.LogFilter

/-- The names of the levels, and the digits that stand for them. -/
def levels : List String :=
  ["trace", "debug", "info", "warn", "error", "off", "0", "1", "2", "3", "4", "5"]

/-- Whether a text names a level; case does not count. -/
def isLevel (cs : List Char) : Bool := levels.contains (String.ofList (cs.map Char.toLower))

/-- Whether a character may stand in the name of a target. -/
def isTargetChar (c : Char) : Bool :=
  c.isAlphanum || c = '_' || c = ':' || c = '-' || 0x80 ≤ c.toNat

/-- What follows a target in front, if there is one. -/
def afterTarget? (cs : List Char) : Option (List Char) :=
  let rest := cs.dropWhile isTargetChar
  if rest.length < cs.length then some rest else none

/-- What follows spans in square brackets in front, if there are any. -/
def afterSpans? : List Char → Option (List Char)
  | '[' :: cs =>
    match cs.dropWhile (· ≠ ']') with
    | ']' :: rest => some rest
    | _ => none
  | _ => none

/-- Whether a text is nothing, or an equals sign with a level or nothing after
    it. -/
def isAssignment : List Char → Bool
  | [] => true
  | '=' :: cs => cs.isEmpty || isLevel cs
  | _ => false

/-- Whether a text is a directive. -/
def isDirective (cs : List Char) : Bool :=
  let selector? (cs : List Char) : Option (List Char) := (afterTarget? cs).or (afterSpans? cs)
  isLevel cs ||
    match selector? cs with
    | none => false
    | some rest => isAssignment rest || (selector? rest).any isAssignment

/-- The pieces between commas. -/
def pieces (cs : List Char) : List (List Char) := cs.splitOn ','

/-- Whether a text is a filter. -/
def isValid (text : String) : Bool := text.isEmpty || (pieces text.toList).all isDirective

end Stepper.Config.LogFilter
