/-
  The values of TOML that are written without marks.

  `ofWord?` tells integers, floats, times and truth values apart.  An integer
  is recognised by how it starts and by its underscores; whether the digits fit
  its base shows only in its value, so that `1_0x` is an integer without one.
-/
import Stepper.Config.Toml.Basic
import Stepper.Config.Toml.Text
import Stepper.Config.Toml.Time

namespace Stepper.Config.Toml

/-! ## Digits and underscores -/

/-- Without underscores, each of which has to stand between digits; `before`
    tells whether a digit comes before the text. -/
def joinedAfter? (isDigit : Char → Bool) : (before : Bool) → List Char → Option (List Char)
  | _, [] => some []
  | before, c :: cs =>
    if c = '_' then
      if before ∧ cs.head?.any isDigit then joinedAfter? isDigit false cs else none
    else (joinedAfter? isDigit (isDigit c) cs).map (c :: ·)

/-- Without underscores, each of which has to stand between digits. -/
def joined? (isDigit : Char → Bool) (cs : List Char) : Option (List Char) :=
  joinedAfter? isDigit false cs

/-- Whether a character is a digit of a base. -/
def isDigitOf (base : Nat) (c : Char) : Bool := (hexDigit? c).any (· < base)

/-- The number that digits denote in a base, if they denote one. -/
def valueIn? (base : Nat) (digits : List Char) : Option Nat :=
  if digits.isEmpty then none
  else digits.foldlM (fun n c => ((hexDigit? c).filter (· < base)).map (base * n + ·)) 0

/-- An integer with the given digits; `sign` is 1 or -1. -/
def integerOf (sign : Int) (base : Nat) (digits : List Char) : Toml :=
  match valueIn? base digits with
  | some n => .integer (sign * n)
  | none => .other

/-- An integer after the letter of its base. -/
def inBase? (base : Nat) (cs : List Char) : Option Toml :=
  if cs.all fun c => c = '_' || isDigitOf base c then
    (joined? (isDigitOf 16) cs).map (integerOf 1 base)
  else none

/-! ## Floats -/

/-- What follows one or more digits, with underscores between them; with
    `strict`, no zero may stand in front of others. -/
def afterDigits? (strict : Bool) (cs : List Char) : Option (List Char) :=
  let isPart (c : Char) : Bool := c.isDigit || c = '_'
  let count := (cs.takeWhile isPart).countP Char.isDigit
  if count = 0 ∨ (strict ∧ 1 < count ∧ cs.head? = some '0') then none
  else some (cs.dropWhile isPart)

/-- What follows a fraction, if there is one. -/
def afterFraction? (cs : List Char) : Option (List Char) :=
  match cs with
  | '.' :: cs => afterDigits? false cs
  | cs => some cs

/-- What follows an exponent, if there is one. -/
def afterExponent? (cs : List Char) : Option (List Char) :=
  match cs with
  | c :: cs' =>
    if c = 'e' ∨ c = 'E' then
      match cs' with
      | '+' :: ds | '-' :: ds => afterDigits? false ds
      | ds => afterDigits? false ds
    else some cs
  | [] => some []

/-- Whether a text is a float with digits and no sign. -/
def isFloat (cs : List Char) : Bool :=
  (((afterDigits? true cs).bind afterFraction?).bind afterExponent?).any List.isEmpty

/-! ## Words -/

/-- A number or a time that starts with a digit, after its sign if it has
    one. -/
def ofDigits? (signed : Bool) (sign : Int) (cs : List Char) : Option Toml :=
  let rest := cs.dropWhile Char.isDigit
  let startsWith (c : Char) : Bool := rest.head? = some c
  if startsWith '-' ∨ startsWith ':' then
    if !signed ∧ Time.isTime cs then some .other else none
  else if rest.contains ' ' then none
  else if rest.any fun c => c = '.' || c = 'e' || c = 'E' then
    if isFloat cs ∧ (joined? Char.isDigit cs).isSome then some .other else none
  else if (rest.isEmpty ∨ startsWith '_') ∧ (cs.head? ≠ some '0' ∨ cs.length = 1) then
    (joined? (isDigitOf 16) cs).map (integerOf sign 10)
  else none

/-- A value that may have a sign, after it. -/
def ofUnsigned? (signed : Bool) (sign : Int) (cs : List Char) : Option Toml :=
  match cs with
  | '0' :: 'x' :: ds => if signed then none else inBase? 16 ds
  | '0' :: 'o' :: ds => if signed then none else inBase? 8 ds
  | '0' :: 'b' :: ds => if signed then none else inBase? 2 ds
  | ['i', 'n', 'f'] | ['n', 'a', 'n'] => some .other
  | c :: _ => if c.isDigit then ofDigits? signed sign cs else none
  | [] => none

/-- The value of a word, `none` if it has none. -/
def ofWord? (word : List Char) : Option Toml :=
  match word with
  | '+' :: cs => ofUnsigned? true 1 cs
  | '-' :: cs => ofUnsigned? true (-1) cs
  | ['t', 'r', 'u', 'e'] | ['f', 'a', 'l', 's', 'e'] => some .other
  | cs => ofUnsigned? false 1 cs

end Stepper.Config.Toml
