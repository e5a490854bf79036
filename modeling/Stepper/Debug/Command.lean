/-
  What clients may answer at a breakpoint.

  A prompt asks either for one of six commands or for an expression;
  `Reply.parse` reads the text that comes back.
-/
import Stepper.Text.Blank
import Stepper.Eval.Error
import Stepper.Json.Basic

namespace Stepper.Debug

open Stepper.Eval Stepper.Syntax
open Stepper.Text (trim)

/-- The commands of the debugger. -/
inductive Command where
  /-- Go on with the value at hand. -/
  | next
  /-- Go on and pass all later breakpoints of the evaluation. -/
  | proceed
  /-- Go on and pass the breakpoints inside the form around. -/
  | out
  /-- Go on with the value of an expression. -/
  | inject
  /-- Show the value of an expression and ask again. -/
  | eval
  /-- Abort the evaluation. -/
  | quit
  deriving DecidableEq, Repr

namespace Command

/-- All commands, in the order in which prompts list them. -/
def all : List Command := [next, proceed, out, inject, eval, quit]

/-- The name under which clients give the command. -/
def name : Command → String
  | next => "next"
  | proceed => "continue"
  | out => "out"
  | inject => "inject"
  | eval => "eval"
  | quit => "quit"

/-- The command with the given name. -/
def named? (name : String) : Option Command := all.find? (·.name == name)

end Command

/-- What a prompt asks for. -/
inductive InputKind where
  | command
  | expression
  deriving DecidableEq, Repr

/-- How a prompt says what it asks for. -/
def InputKind.toJson : InputKind → Json
  | command => .strings (Command.all.map Command.name)
  | expression => .string "expression"

/-- A reply that could be read. -/
inductive Reply where
  | command (c : Command)
  | expression (form : Form)

namespace Reply

/-- Reads the name of a command, with or without a colon before it. -/
def parseCommand (text : String) : Except Error Reply :=
  let name := match trim text.toList with
    | ':' :: cs => String.ofList cs
    | cs => String.ofList cs
  match Command.named? name with
  | some c => .ok (.command c)
  | none => .error (.malformedReply (.unknownCommand name))

/-- Reads an expression. -/
def parseExpression (text : String) : Except Error Reply :=
  match readForm text with
  | .ok form => .ok (.expression form)
  | .error e => .error (.malformedReply (.unreadable e))

/-- Reads a reply of the kind that was asked for. -/
def parse : InputKind → String → Except Error Reply
  | .command => parseCommand
  | .expression => parseExpression

end Reply

end Stepper.Debug
