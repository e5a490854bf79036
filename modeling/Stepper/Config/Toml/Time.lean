/-
  The times of TOML.

  A date, a time of day, or both with the letter T or a space between them;
  both together may have an offset from universal time.  Seconds may be left
  out.
-/
namespace Stepper.Config.Toml.Time

/-- A number of exactly `n` digits, and what follows it. -/
def digits? (n : Nat) (cs : List Char) : Option (Nat × List Char) :=
  let ds := cs.takeWhile Char.isDigit
  if ds.length = n then
    some (ds.foldl (fun n d => 10 * n + (d.toNat - '0'.toNat)) 0, cs.dropWhile Char.isDigit)
  else none

/-- What follows a character. -/
def after? (c : Char) (cs : List Char) : Option (List Char) :=
  if cs.head? = some c then some cs.tail else none

/-- The number of days of a month. -/
def daysIn (year month : Nat) : Nat :=
  if month = 2 then
    if year % 4 = 0 ∧ (year % 100 ≠ 0 ∨ year % 400 = 0) then 29 else 28
  else if month ∈ [4, 6, 9, 11] then 30
  else 31

/-- What follows a date. -/
def date? (cs : List Char) : Option (List Char) := do
  let (year, cs) ← digits? 4 cs
  let (month, cs) ← digits? 2 (← after? '-' cs)
  let (day, cs) ← digits? 2 (← after? '-' cs)
  if 1 ≤ month ∧ month ≤ 12 ∧ 1 ≤ day ∧ day ≤ daysIn year month then some cs else none

/-- What follows the digits of a fraction, if there is one. -/
def fraction? (cs : List Char) : Option (List Char) :=
  match cs with
  | '.' :: cs => if cs.head?.any Char.isDigit then some (cs.dropWhile Char.isDigit) else none
  | cs => some cs

/-- What follows the seconds, if there are any. -/
def seconds? (cs : List Char) : Option (List Char) :=
  match cs with
  | ':' :: cs => do
    let (second, cs) ← digits? 2 cs
    if second ≤ 60 then fraction? cs else none
  | cs => some cs

/-- An hour and a minute, and what follows them. -/
def clock? (cs : List Char) : Option (List Char) := do
  let (hour, cs) ← digits? 2 cs
  let (minute, cs) ← digits? 2 (← after? ':' cs)
  if hour ≤ 23 ∧ minute ≤ 59 then some cs else none

/-- What follows a time of day. -/
def timeOfDay? (cs : List Char) : Option (List Char) := (clock? cs).bind seconds?

/-- Whether a text is an offset or empty. -/
def isOffset : List Char → Bool
  | [] | ['Z'] | ['z'] => true
  | c :: cs => (c = '+' || c = '-') && (clock? cs).any List.isEmpty

/-- Whether a text is a time. -/
def isTime (cs : List Char) : Bool :=
  match date? cs with
  | none => (timeOfDay? cs).any List.isEmpty
  | some [] => true
  | some (c :: cs) => (c = 'T' || c = 't' || c = ' ') && (timeOfDay? cs).any isOffset

end Stepper.Config.Toml.Time
