/-
  Tokens of the expression language.

  A token has a kind, its text and the byte offset where it starts in the
  source; blanks and comments are tokens too, so that the tokens of a source
  cover it without gaps.  `TokenKind.describe` is the wording the reader uses
  in its errors.
-/
namespace Stepper.Syntax

/-- The kinds of token. -/
inductive TokenKind where
  | whitespace
  | comment
  | openParen
  | closeParen
  | openBracket
  | closeBracket
  | quote
  | breakTag
  | integer
  | float
  | string
  | symbol
  /-- Text that belongs to no token. -/
  | unrecognized
  deriving DecidableEq, Repr

namespace TokenKind

/-- Blanks and comments, which the reader passes over. -/
def isTrivia : TokenKind → Bool
  | whitespace | comment => true
  | _ => false

/-- How errors speak of a token of this kind.  The quotation marks around
    delimiters are grave accents. -/
def describe : TokenKind → String
  | whitespace => "whitespace"
  | comment => "comment"
  | openParen => "\x60(\x60"
  | closeParen => "\x60)\x60"
  | openBracket => "\x60[\x60"
  | closeBracket => "\x60]\x60"
  | quote => "\x60'\x60"
  | breakTag => "\x60#break\x60"
  | integer => "integer literal"
  | float => "float literal"
  | string => "string literal"
  | symbol => "symbol"
  | unrecognized => "unrecognized input"

end TokenKind

/-- A stretch of the source, in UTF-8 bytes: from `start` up to `stop`. -/
structure Range where
  start : Nat
  stop : Nat
  deriving DecidableEq, Repr

/-- A token of the source. -/
structure Token where
  kind : TokenKind
  text : String
  start : Nat
  deriving DecidableEq, Repr

namespace Token

/-- Length in bytes. -/
def size (t : Token) : Nat := t.text.utf8ByteSize

/-- The bytes that the token covers.  Offsets are of 32 bits in a reader at work
    and have no bound here: the two agree on sources under 2 ^ 32 bytes, whose
    tokens are all within that bound, and larger sources are not modelled. -/
def range (t : Token) : Range := ⟨t.start, t.start + t.size⟩

end Token

end Stepper.Syntax
