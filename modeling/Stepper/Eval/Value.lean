/-
  Values and how they print.

  Quoted forms become data by `Value.ofForm`, which drops the tags.  Values
  are equal (`Value.same`) when they are of one kind and agree in all parts;
  functions are equal to themselves only, and not-a-number is not even that.
-/
import Stepper.Syntax.Printer
import Stepper.Eval.Coordinate
import Stepper.Eval.Moment

namespace Stepper.Eval

open Stepper.Syntax (Form quoted sequence showInteger showBool)
open Stepper.Number (showFloat)

/-- The functions of the language that are not defined by programs. -/
inductive Builtin where
  | add | sub | mul | div | mod
  | eq | lt | gt | le | ge
  | not | inc | dec | str | list | vector | count
  deriving DecidableEq, Repr

namespace Builtin

/-- All of them. -/
def all : List Builtin :=
  [add, sub, mul, div, mod, eq, lt, gt, le, ge, not, inc, dec, str, list, vector, count]

/-- The symbol under which programs find the function. -/
def name : Builtin → String
  | add => "+"
  | sub => "-"
  | mul => "*"
  | div => "/"
  | mod => "mod"
  | eq => "="
  | lt => "<"
  | gt => ">"
  | le => "<="
  | ge => ">="
  | not => "not"
  | inc => "inc"
  | dec => "dec"
  | str => "str"
  | list => "list"
  | vector => "vector"
  | count => "count"

/-- The function with the given name. -/
def named? (name : String) : Option Builtin := all.find? (·.name == name)

end Builtin

/-- A value of the language. -/
inductive Value where
  | nil
  | bool (b : Bool)
  | int (n : Int64)
  | float (x : Float)
  | str (s : String)
  | symbol (name : String)
  | list (items : List Value)
  | vector (items : List Value)
  | builtin (f : Builtin)
  /-- A function made by a program: the moment of its making, its parameters
      and body, the bindings it saw, outermost first, and where its form is. -/
  | closure (id : Moment) (params : List String) (body : List Form)
      (captured : List (String × Value)) (place : Coordinate)
  deriving Inhabited

/-- A name and what it stands for. -/
abbrev Binding := String × Value

namespace Value

/-- The kind of a value, as errors name it. -/
def kind : Value → String
  | nil => "nil"
  | bool _ => "boolean"
  | int _ => "integer"
  | float _ => "float"
  | str _ => "string"
  | symbol _ => "symbol"
  | list _ => "list"
  | vector _ => "vector"
  | builtin _ | closure .. => "function"

/-- All values but `nil` and `false` count as true. -/
def truthy : Value → Bool
  | nil | bool false => false
  | _ => true

mutual
/-- The data that a quoted form stands for. -/
def ofForm : Form → Value
  | .nil => nil
  | .bool b => bool b
  | .int n => int n
  | .float x => float x
  | .str s => str s
  | .symbol name => symbol name
  | .list items => list (ofForms items)
  | .vector items => vector (ofForms items)
  | .tagged form => ofForm form

/-- The data that some quoted forms stand for. -/
def ofForms : List Form → List Value
  | [] => []
  | form :: forms => ofForm form :: ofForms forms
end

mutual
/-- Equality as programs see it. -/
def same : Value → Value → Bool
  | nil, nil => true
  | bool a, bool b => a == b
  | int a, int b => a == b
  | float a, float b => a == b
  | str a, str b => a == b
  | symbol a, symbol b => a == b
  | list as, list bs => sameAll as bs
  | vector as, vector bs => sameAll as bs
  | builtin f, builtin g => f == g
  | closure id .., closure id' .. => id == id'
  | _, _ => false

/-- Equality of rows of values, item by item. -/
def sameAll : List Value → List Value → Bool
  | [], [] => true
  | a :: as, b :: bs => same a b && sameAll as bs
  | _, _ => false
end

mutual
/-- The text of a value, as characters. -/
def chars : Value → List Char
  | nil => ['n', 'i', 'l']
  | bool b => showBool b
  | int n => showInteger n
  | float x => (showFloat x).toList
  | str s => quoted s
  | symbol name => name.toList
  | list items => sequence '(' ')' (charsEach items)
  | vector items => sequence '[' ']' (charsEach items)
  | builtin f => ['#', '<', 'f', 'n', ' '] ++ f.name.toList ++ ['>']
  | closure .. => ['#', '<', 'f', 'n', '>']

/-- The texts of some values. -/
def charsEach : List Value → List (List Char)
  | [] => []
  | value :: values => value.chars :: charsEach values
end

/-- The text of a value. -/
def print (value : Value) : String := String.ofList value.chars

end Value

end Stepper.Eval
