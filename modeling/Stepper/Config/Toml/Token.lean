/-
  The tokens of TOML.

  `tokens` cuts a text into marks, strings, words, blanks, line ends and
  comments.  Every text can be cut: what is wrong with a string or a word shows
  only when its value is wanted.
-/
import Stepper.Config.Toml.Text

namespace Stepper.Config.Toml

/-- A piece of a text. -/
inductive Token where
  /-- One of `. = , [ ] \x7b \x7d`. -/
  | mark (c : Char)
  /-- A string, `none` if it is malformed, on one line or between three marks. -/
  | text (content : Option String) (threefold : Bool)
  /-- Anything else: bare keys, numbers, times and truth values. -/
  | word (cs : List Char)
  /-- Spaces and tabs. -/
  | blank (cs : List Char)
  | lineEnd
  /-- A comment up to the end of the line. -/
  | comment
  /-- A control character where none may stand. -/
  | stray

/-- The marks that stand for themselves. -/
def marks : List Char := ['.', '=', ',', '[', ']', '\x7b', '\x7d']

/-- Whether a character ends a word. -/
def endsWord (c : Char) : Bool := marks.contains c || [' ', '\t', '#', '\r', '\n'].contains c

/-- Whether a line may consist of some characters, the last of which may belong
    to the end of the line. -/
def isLine (cs : List Char) (ended : Bool) : Bool :=
  cs.all isPlain || (ended && cs.getLast? = some '\r' && cs.dropLast.all isPlain)

/-- A string after its opening marks. -/
def textToken (content : List Char → Option (List Char)) (threefold : Bool) (span : Span) :
    Token × List Char :=
  let span := if threefold then span.afterFirstLineEnd else span
  (.text (span.text? content) threefold, span.rest)

/-- The token that starts with a character, and what follows it. -/
def next (c : Char) (cs : List Char) : Token × List Char :=
  if marks.contains c then (.mark c, cs)
  else match c, cs with
    | ' ', _ | '\t', _ =>
      let isBlank (c : Char) : Bool := c = ' ' || c = '\t'
      (.blank (c :: cs.takeWhile isBlank), cs.dropWhile isBlank)
    | '\n', cs | '\r', '\n' :: cs => (.lineEnd, cs)
    | '\r', cs => (.stray, cs)
    | '#', cs =>
      let rest := cs.dropWhile (· ≠ '\n')
      (if isLine (cs.takeWhile (· ≠ '\n')) !rest.isEmpty then .comment else .stray, rest)
    | '"', '"' :: '"' :: cs => textToken (unescape .kept) true (Span.lines '"' true cs)
    | '"', cs => textToken (unescape .kept) false (Span.line '"' true cs)
    | '\'', '\'' :: '\'' :: cs => textToken verbatim true (Span.lines '\'' false cs)
    | '\'', cs => textToken verbatim false (Span.line '\'' false cs)
    | c, cs => (.word (c :: cs.takeWhile (!endsWord ·)), cs.dropWhile (!endsWord ·))

/-- The tokens of a text; `fuel` bounds their number. -/
def cut : (fuel : Nat) → List Char → List Token
  | 0, _ | _, [] => []
  | fuel + 1, c :: cs =>
    let (token, rest) := next c cs
    token :: cut fuel rest

/-- The tokens of a text. -/
def tokens (cs : List Char) : List Token := cut cs.length cs

end Stepper.Config.Toml
