/-
  Forms as text.

  A form is written the way the reader takes it: items separated by single
  spaces, strings with the four escapes the reader knows.  The pieces that do
  not depend on forms (`quoted`, `sequence`, `showInteger`) also print values.
-/
import Stepper.Number.Notation
import Stepper.Syntax.Form

namespace Stepper.Syntax

open Stepper.Number (digitsOf signed showFloat)

/-! ## Pieces -/

/-- A character inside a string literal. -/
def escape : Char → List Char
  | '"' => ['\\', '"']
  | '\\' => ['\\', '\\']
  | '\n' => ['\\', 'n']
  | '\t' => ['\\', 't']
  | c => [c]

/-- A string literal. -/
def quoted (s : String) : List Char := '"' :: s.toList.flatMap escape ++ ['"']

/-- The decimal text of an integer. -/
def showInteger (n : Int64) : List Char := signed (n.toInt < 0) (digitsOf n.toInt.natAbs)

/-- The text of a truth value. -/
def showBool (b : Bool) : List Char := if b then ['t', 'r', 'u', 'e'] else ['f', 'a', 'l', 's', 'e']

/-- Texts between brackets, separated by spaces. -/
def sequence (opening closing : Char) (texts : List (List Char)) : List Char :=
  opening :: [' '].intercalate texts ++ [closing]

/-! ## Forms -/

namespace Form

mutual
/-- The text of a form, as characters. -/
def chars : Form → List Char
  | nil => ['n', 'i', 'l']
  | bool b => showBool b
  | int n => showInteger n
  | float x => (showFloat x).toList
  | str s => quoted s
  | symbol name => name.toList
  | list items => sequence '(' ')' (charsEach items)
  | vector items => sequence '[' ']' (charsEach items)
  | tagged form => ['#', 'b', 'r', 'e', 'a', 'k', ' '] ++ form.chars

/-- The texts of some forms. -/
def charsEach : List Form → List (List Char)
  | [] => []
  | form :: forms => form.chars :: charsEach forms
end

/-- The text of a form. -/
def print (form : Form) : String := String.ofList form.chars

end Form

end Stepper.Syntax
