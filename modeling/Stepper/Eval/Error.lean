/-
  What can go wrong, and how it is worded.

  Errors are causes; `Error.message` is the one place that puts them into
  words.
-/
import Stepper.Syntax.Reader
import Stepper.Eval.Value

namespace Stepper.Eval

open Stepper.Syntax (ReadError)

/-- A number of arguments that a function takes. -/
inductive ArgumentCount where
  | exactly (n : Nat)
  | atLeast (n : Nat)
  deriving DecidableEq, Repr

/-- The number as errors put it. -/
def ArgumentCount.describe : ArgumentCount → String
  | exactly n => toString n
  | atLeast n => "at least " ++ toString n

/-- Ways to misuse a special form. -/
inductive ShapeFault where
  | quoteCount
  | ifCount
  | letVector
  | letPairs
  | letName
  | fnVector
  | fnName
  deriving DecidableEq, Repr

/-- The special form and what it wants. -/
def ShapeFault.describe : ShapeFault → String
  | quoteCount => "quote: expects exactly one form"
  | ifCount => "if: expects a test, a then branch and an optional else"
  | letVector => "let: expects a binding vector"
  | letPairs => "let: binding vector needs an even number of forms"
  | letName => "let: binding names must be symbols"
  | fnVector => "fn: expects a parameter vector"
  | fnName => "fn: parameters must be symbols"

/-- Ways in which a client's reply can be of no use. -/
inductive ReplyFault where
  | unknownCommand (text : String)
  | unreadable (error : ReadError)
  | notPending (key : String)
  | expectedCommand
  | expectedExpression
  deriving DecidableEq, Repr

/-- The wording of a useless reply. -/
def ReplyFault.describe : ReplyFault → String
  | unknownCommand text => "unknown command '" ++ text ++ "'"
  | unreadable error => error.message
  | notPending key => "input key '" ++ key ++ "' is not pending"
  | expectedCommand => "expected a command"
  | expectedExpression => "expected an expression"

/-- Errors of evaluation, of the debugger and of the server around them. -/
inductive Error where
  | unresolved (name : String)
  | typeMismatch (op : Builtin) (expected : String) (got : String)
  | arity (callee : String) (expected : ArgumentCount) (got : Nat)
  | notCallable (text : String)
  | malformed (fault : ShapeFault)
  | depthExceeded (limit : Nat)
  | divisionByZero
  | overflow
  | unreadable (error : ReadError)
  | noDebugger (place : Coordinate)
  | malformedReply (fault : ReplyFault)
  | replyTimeout (key : String)
  | cancelled
  | connectionClosed (connection : Nat)
  /-- Whoever watches the breakpoints has failed. -/
  | control (reason : String)
  deriving DecidableEq, Repr

/-- The wording of an error. -/
def Error.message : Error → String
  | unresolved name => "unable to resolve symbol '" ++ name ++ "'"
  | typeMismatch op expected got =>
    "type mismatch: " ++ op.name ++ " expects " ++ expected ++ ", got " ++ got
  | arity callee expected got =>
    "wrong number of arguments to " ++ callee ++ " (expected " ++ expected.describe
      ++ ", got " ++ toString got ++ ")"
  | notCallable text => text ++ " is not callable"
  | malformed fault => "malformed " ++ fault.describe
  | depthExceeded limit => "evaluation nested deeper than " ++ toString limit ++ " levels"
  | divisionByZero => "division by zero"
  | overflow => "arithmetic overflow"
  | unreadable error => "read error: " ++ error.message
  | noDebugger place =>
    "breakpoint hit at " ++ place.print ++ " but no debugger is attached"
  | malformedReply fault => "malformed debugger reply: " ++ fault.describe
  | replyTimeout key => "timed out waiting for debugger reply '" ++ key ++ "'"
  | cancelled => "evaluation cancelled"
  | connectionClosed connection =>
    "transport error: connection " ++ toString connection ++ " closed"
  | control reason => "control error: " ++ reason

end Stepper.Eval
