/-
  The strings of TOML.

  A string stands between marks, quotation marks or apostrophes, on one line or
  between three marks on several.  `Span` finds where it ends; `unescape` and
  `verbatim` give its text, with and without escapes.
-/
namespace Stepper.Config.Toml

/-- Whether a character may stand for itself on a line. -/
def isPlain (c : Char) : Bool := c = '\t' || (0x20 ≤ c.toNat && c.toNat ≠ 0x7F)

/-! ## Where strings end -/

/-- What stands between the marks of a string, whether it is closed, and what
    follows it. -/
structure Span where
  inside : List Char
  closed : Bool
  rest : List Char

namespace Span

/-- One more character inside. -/
def cons (c : Char) (span : Span) : Span := { span with inside := c :: span.inside }

/-- A string up to its mark, at most to the end of the line.  With `escapes`
    a mark after a backslash does not count. -/
def line (mark : Char) (escapes : Bool) : List Char → Span
  | [] => ⟨[], false, []⟩
  | [c] =>
    if c = mark then ⟨[], true, []⟩
    else if c = '\n' then ⟨[], false, [c]⟩
    else ⟨[c], false, []⟩
  | c :: d :: cs =>
    if c = mark then ⟨[], true, d :: cs⟩
    else if c = '\n' then ⟨[], false, c :: d :: cs⟩
    else if escapes ∧ c = '\\' ∧ (d = mark ∨ d = '\\') then ((line mark escapes cs).cons d).cons c
    else (line mark escapes (d :: cs)).cons c

/-- A string after three closing marks: up to two more belong to it. -/
def closing (mark : Char) (cs : List Char) : Span :=
  let extra := (cs.take 2).takeWhile (· = mark)
  ⟨extra, true, cs.drop extra.length⟩

/-- A string up to three marks. -/
def lines (mark : Char) (escapes : Bool) : List Char → Span
  | [] => ⟨[], false, []⟩
  | [c] => ⟨[c], false, []⟩
  | c :: d :: cs =>
    if c = mark ∧ d = mark ∧ cs.head? = some mark then closing mark cs.tail
    else if escapes ∧ c = '\\' ∧ (d = mark ∨ d = '\\') then ((lines mark escapes cs).cons d).cons c
    else (lines mark escapes (d :: cs)).cons c

/-- Without the end of a line right after the opening marks. -/
def afterFirstLineEnd (span : Span) : Span :=
  match span.inside with
  | '\n' :: cs | '\r' :: '\n' :: cs => { span with inside := cs }
  | _ => span

/-- The text of a string, given the text of what is inside. -/
def text? (content : List Char → Option (List Char)) (span : Span) : Option String :=
  if span.closed then (content span.inside).map String.ofList else none

end Span

/-! ## The text of a string -/

/-- The value of a hexadecimal digit. -/
def hexDigit? (c : Char) : Option Nat :=
  if '0' ≤ c ∧ c ≤ '9' then some (c.toNat - '0'.toNat)
  else if 'a' ≤ c ∧ c ≤ 'f' then some (c.toNat - 'a'.toNat + 10)
  else if 'A' ≤ c ∧ c ≤ 'F' then some (c.toNat - 'A'.toNat + 10)
  else none

/-- The character whose code point is written in hexadecimal. -/
def scalar? (digits : List Char) : Option Char := do
  let n ← digits.foldlM (fun n c => (hexDigit? c).map (16 * n + ·)) 0
  if n.isValidChar then some (Char.ofNat n) else none

/-- The character of an escape with one letter. -/
def letterEscape? : Char → Option Char
  | 'b' => some '\x08'
  | 'e' => some '\x1b'
  | 't' => some '\t'
  | 'n' => some '\n'
  | 'f' => some '\x0c'
  | 'r' => some '\r'
  | '"' => some '"'
  | '\\' => some '\\'
  | _ => none

/-- One more character, if there is one, in front. -/
def prepend? (c : Option Char) (cs : Option (List Char)) : Option (List Char) :=
  c.bind fun c => cs.map (c :: ·)

/-- What happens to blanks and line ends. -/
inductive Margin where
  /-- They belong to the text. -/
  | kept
  /-- A backslash has to be followed by blanks and the end of the line. -/
  | broken
  /-- After such a line they are left out. -/
  | dropped
  deriving DecidableEq

/-- The text of a string with escapes.  The ends of its lines stay as they are
    written. -/
def unescape : Margin → List Char → Option (List Char)
  | margin, [] => if margin = .broken then none else some []
  | margin, c :: cs =>
    if c = '\n' then
      match margin with
      | .kept => prepend? c (unescape .kept cs)
      | _ => unescape .dropped cs
    else if c = ' ' ∨ c = '\t' ∨ (c = '\r' ∧ cs.head? = some '\n') then
      match margin with
      | .kept => prepend? c (unescape .kept cs)
      | margin => unescape margin cs
    else if margin = .broken then none
    else if c = '\\' then
      match cs with
      | 'x' :: a :: b :: cs => prepend? (scalar? [a, b]) (unescape .kept cs)
      | 'u' :: a :: b :: c :: d :: cs => prepend? (scalar? [a, b, c, d]) (unescape .kept cs)
      | 'U' :: a :: b :: c :: d :: e :: f :: g :: h :: cs =>
        prepend? (scalar? [a, b, c, d, e, f, g, h]) (unescape .kept cs)
      | e :: cs =>
        if e ∈ [' ', '\t', '\r', '\n'] then unescape .broken (e :: cs)
        else prepend? (letterEscape? e) (unescape .kept cs)
      | [] => none
    else if isPlain c then prepend? c (unescape .kept cs)
    else none

/-- The text of a string without escapes. -/
def verbatim : List Char → Option (List Char)
  | [] => some []
  | c :: cs =>
    if isPlain c ∨ c = '\n' ∨ (c = '\r' ∧ cs.head? = some '\n') then prepend? c (verbatim cs)
    else none

end Stepper.Config.Toml
