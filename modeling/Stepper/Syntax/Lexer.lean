/-
  The lexer: longest match over a table of patterns.

  * `table` gives the pattern of each kind of token; of two kinds that match
    the same longest text, the one that stands first in the table wins, so a
    number beats a symbol;
  * `munch` finds the first token of a text.  Where no pattern matches, it
    takes the longest text with which some token could still start, and at
    least one character, as `unrecognized`;
  * `lex` cuts a whole source into tokens and never fails.
-/
import Stepper.Text.Pattern
import Stepper.Syntax.Token

namespace Stepper.Syntax

open Stepper.Text (Pattern)

/-! ## The table of patterns -/

namespace CharClass

/-- The characters that separate tokens. -/
def blank (c : Char) : Bool := c ∈ [' ', '\t', '\r', '\n', ',']

/-- The decimal digits. -/
def digit (c : Char) : Bool := '0' ≤ c && c ≤ '9'

/-- The letters a symbol may hold. -/
def letter (c : Char) : Bool := ('A' ≤ c && c ≤ 'Z') || ('a' ≤ c && c ≤ 'z')

/-- The characters with which a symbol may start. -/
def symbolStart (c : Char) : Bool :=
  letter c || c ∈ ['_', '+', '-', '*', '/', '<', '>', '=', '!', '?', '.', '%', '&']

/-- The characters that may follow in a symbol. -/
def symbolRest (c : Char) : Bool := symbolStart c || digit c || c == '\''

end CharClass

open CharClass in
/-- The pattern of each kind of token, the kinds that win ties first. -/
def table : List (TokenKind × Pattern) :=
  let digits := (Pattern.one digit).oneOrMore
  let minus := (Pattern.char '-').optional
  let sign := (Pattern.one (· ∈ ['+', '-'])).optional
  let exponent := (Pattern.one (· ∈ ['e', 'E'])).seq (sign.seq digits)
  let escaped := (Pattern.char '\\').seq (.one (· != '\n'))
  let plain := Pattern.one fun c => c != '"' && c != '\\'
  [(.whitespace, (Pattern.one blank).oneOrMore),
   (.comment, (Pattern.char ';').seq (.many (.one fun c => c != '\r' && c != '\n'))),
   (.openParen, .char '('),
   (.closeParen, .char ')'),
   (.openBracket, .char '['),
   (.closeBracket, .char ']'),
   (.quote, .char '\''),
   (.breakTag, .text ['#', 'b', 'r', 'e', 'a', 'k']),
   (.integer, minus.seq digits),
   (.float, minus.seq (digits.seq ((Pattern.char '.').seq (digits.seq exponent.optional)))),
   (.string, (Pattern.char '"').seq ((Pattern.many (plain.either escaped)).seq (.char '"'))),
   (.symbol, (Pattern.one symbolStart).seq (.many (.one symbolRest)))]

/-! ## Longest match -/

/-- The rows that can still be completed once `c` has been read. -/
def advance (c : Char) (rows : List (TokenKind × Pattern)) : List (TokenKind × Pattern) :=
  (rows.map fun (kind, p) => (kind, p.after c)).filter fun (_, p) => !p.isNever

/-- The first row that needs no further character. -/
def completed (rows : List (TokenKind × Pattern)) : Option TokenKind :=
  (rows.find? fun (_, p) => p.acceptsEmpty).map (·.1)

/-- What the search for the longest match has found: the longest match so
    far, and how many characters some row could still be completed after. -/
structure Found where
  best : Option (TokenKind × Nat)
  reach : Nat

/-- Reads on for as long as some row can be completed; `found` is what the
    first `found.reach` characters gave. -/
def search (rows : List (TokenKind × Pattern)) (found : Found) : List Char → Found
  | [] => found
  | c :: cs =>
    let rows := advance c rows
    if rows.isEmpty then found
    else
      let n := found.reach + 1
      let best := ((completed rows).map (·, n)).or found.best
      search rows ⟨best, n⟩ cs

/-- The kind of the first token of a nonempty text and its length in
    characters. -/
def munch (cs : List Char) : TokenKind × Nat :=
  let found := search table ⟨none, 0⟩ cs
  found.best.getD (.unrecognized, max found.reach 1)

/-- The tokens of a text that starts `start` bytes into the source; the first
    `skip` characters belong to a token already taken. -/
def tokensFrom (start : Nat) : (skip : Nat) → List Char → List Token
  | _, [] => []
  | skip + 1, _ :: cs => tokensFrom start skip cs
  | 0, c :: cs =>
    let (kind, n) := munch (c :: cs)
    let text := String.ofList ((c :: cs).take n)
    ⟨kind, text, start⟩ :: tokensFrom (start + text.utf8ByteSize) (n - 1) cs

/-- All tokens of a source, blanks and comments included. -/
def lex (source : String) : List Token := tokensFrom 0 0 source.toList

end Stepper.Syntax
