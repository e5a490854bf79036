/-
  The reader: from tokens to forms.

  The reader goes through the tokens once and keeps the forms that are still
  open on a stack (`Progress`).  A token opens a form, closes one, or is a
  whole form by itself; a form that is complete goes to whatever waits for it.
  No more than `maxNesting` forms may be open when another one starts.

  `readForms` reads a whole program, `readForm` exactly one form.
-/
import Stepper.Number.Notation
import Stepper.Syntax.Lexer
import Stepper.Syntax.Form

namespace Stepper.Syntax

open Stepper.Number (readInteger? readFloat?)

/-! ## Errors -/

/-- What can be wrong with a source. -/
inductive ReadFault where
  | expectedForm
  | endOfInput
  | unexpected (kind : TokenKind)
  | afterForm (kind : TokenKind)
  | unclosed (closer : TokenKind)
  | tooDeep
  | integerRange
  | floatLiteral
  | unknownEscape (c : Char)
  | danglingEscape
  | unrecognized (text : String)
  deriving DecidableEq, Repr

/-- The most forms that may be nested in each other. -/
def maxNesting : Nat := 512

/-- The wording of a fault. -/
def ReadFault.message : ReadFault → String
  | expectedForm => "expected a form"
  | endOfInput => "unexpected end of input"
  | unexpected kind => "unexpected " ++ kind.describe
  | afterForm kind => "unexpected " ++ kind.describe ++ " after form"
  | unclosed closer => "unclosed collection, expected " ++ closer.describe
  | tooDeep => "forms nested deeper than " ++ toString maxNesting ++ " levels"
  | integerRange => "integer literal out of range"
  | floatLiteral => "invalid float literal"
  | unknownEscape c => "unknown escape \x60\\" ++ String.singleton c ++ "\x60"
  | danglingEscape => "dangling escape"
  | unrecognized text => "unrecognized input \x60" ++ text ++ "\x60"

/-- A fault and the bytes it concerns. -/
structure ReadError where
  fault : ReadFault
  range : Range
  deriving DecidableEq, Repr

/-- The wording of an error: fault and place. -/
def ReadError.message (e : ReadError) : String :=
  e.fault.message ++ " at " ++ toString e.range.start ++ ".." ++ toString e.range.stop

/-! ## Atoms -/

/-- Resolves the escapes between the quotation marks of a string literal. -/
def unescape : List Char → Except ReadFault (List Char)
  | [] => .ok []
  | '\\' :: cs =>
    match cs with
    | [] => .error .danglingEscape
    | 'n' :: cs => (unescape cs).map ('\n' :: ·)
    | 't' :: cs => (unescape cs).map ('\t' :: ·)
    | '"' :: cs => (unescape cs).map ('"' :: ·)
    | '\\' :: cs => (unescape cs).map ('\\' :: ·)
    | c :: _ => .error (.unknownEscape c)
  | c :: cs => (unescape cs).map (c :: ·)

/-- What stands between the first and the last character. -/
def between (cs : List Char) : List Char := (cs.drop 1).dropLast

/-- The form that a symbol token denotes. -/
def Form.ofName : String → Form
  | "nil" => .nil
  | "true" => .bool true
  | "false" => .bool false
  | name => .symbol name

/-- The form that a token denotes by itself. -/
def Token.atom (t : Token) : Except ReadFault Form :=
  match t.kind with
  | .integer => (readInteger? t.text.toList).elim (.error .integerRange) (.ok ∘ .int)
  | .float => (readFloat? t.text.toList).elim (.error .floatLiteral) (.ok ∘ .float)
  | .string => (unescape (between t.text.toList)).map fun cs => .str (String.ofList cs)
  | .symbol => .ok (.ofName t.text)
  | .unrecognized => .error (.unrecognized t.text)
  | kind => .error (.unexpected kind)

/-! ## Open forms -/

/-- The two kinds of collection. -/
inductive Bracket where
  | paren
  | square
  deriving DecidableEq, Repr

/-- The token that closes a collection. -/
def Bracket.closer : Bracket → TokenKind
  | paren => .closeParen
  | square => .closeBracket

/-- A collection with the given items. -/
def Bracket.form : Bracket → List Form → Form
  | paren => .list
  | square => .vector

/-- A form that has begun and is not complete. -/
inductive Open where
  /-- A collection with the items read so far, last one first. -/
  | items (bracket : Bracket) (read : List Form)
  /-- After a quotation mark. -/
  | quote
  /-- After a breakpoint tag. -/
  | tag

/-- How far the reader has come: the open forms, innermost first, and the
    complete forms, last one first. -/
structure Progress where
  opened : List Open
  complete : List Form

/-- Before the first token. -/
def Progress.start : Progress := ⟨[], []⟩

/-- Hands a complete form to what waits for it. -/
def deliver (complete : List Form) : List Open → Form → Progress
  | [], form => ⟨[], form :: complete⟩
  | .items bracket read :: opened, form => ⟨.items bracket (form :: read) :: opened, complete⟩
  | .quote :: opened, form => deliver complete opened (.list [.symbol "quote", form])
  | .tag :: opened, form => deliver complete opened (.tagged form)

/-- A token at the start of a form. -/
def Progress.begin (p : Progress) (t : Token) : Except ReadFault Progress :=
  if maxNesting ≤ p.opened.length then .error .tooDeep
  else match t.kind with
    | .openParen => .ok { p with opened := .items .paren [] :: p.opened }
    | .openBracket => .ok { p with opened := .items .square [] :: p.opened }
    | .quote => .ok { p with opened := .quote :: p.opened }
    | .breakTag => .ok { p with opened := .tag :: p.opened }
    | _ => (t.atom).map (deliver p.complete p.opened)

/-- Takes in a token. -/
def Progress.step (p : Progress) (t : Token) : Except ReadError Progress :=
  let begun := (p.begin t).mapError (⟨·, t.range⟩)
  match p.opened with
  | .items bracket read :: opened =>
    if t.kind = bracket.closer then .ok (deliver p.complete opened (bracket.form read.reverse))
    else begun
  | _ => begun

/-- The fault, if any, of stopping here. -/
def Progress.endFault (p : Progress) : Option ReadFault :=
  match p.opened with
  | [] => none
  | .items bracket _ :: _ => some (.unclosed bracket.closer)
  | opened => some (if maxNesting ≤ opened.length then .tooDeep else .endOfInput)

/-- The complete forms at the end of the source. -/
def Progress.finish (stop : Nat) (p : Progress) : Except ReadError (List Form) :=
  match p.endFault with
  | some fault => .error ⟨fault, ⟨stop, stop⟩⟩
  | none => .ok p.complete.reverse

/-! ## Reading a source -/

/-- The tokens that count for the reader. -/
def significant (source : String) : List Token :=
  (lex source).filter fun t => !t.kind.isTrivia

/-- All forms of a source. -/
def readForms (source : String) : Except ReadError (List Form) := do
  let p ← (significant source).foldlM Progress.step .start
  p.finish source.utf8ByteSize

/-- Takes in a token unless there is a complete form already. -/
def Progress.stepUnlessDone (p : Progress) (t : Token) : Except ReadError Progress :=
  if p.complete.isEmpty then p.step t else .error ⟨.afterForm t.kind, t.range⟩

/-- The only form of a source. -/
def readForm (source : String) : Except ReadError Form := do
  let p ← (significant source).foldlM Progress.stepUnlessDone .start
  match ← p.finish source.utf8ByteSize with
  | form :: _ => .ok form
  | [] => .error ⟨.expectedForm, ⟨source.utf8ByteSize, source.utf8ByteSize⟩⟩

end Stepper.Syntax
