/-
  The evaluator.

  `evalForm room form place now` evaluates a form at a coordinate and a moment
  with `room` levels of nesting left.  It works on a `Context`, the local
  bindings and the depth reached, which every evaluation leaves as it found
  it.  Lists and vectors ask whether the evaluation has been cancelled; a
  tagged form is evaluated and its value offered at a breakpoint.

  `evalForms` evaluates the forms of a program one after another.
-/
import Stepper.Eval.Builtin
import Stepper.Eval.Run

namespace Stepper.Eval

open Stepper.Syntax (Form readForms readForm)

/-- The deepest nesting of evaluations, calls of functions included. -/
def maxDepth : Nat := 512

/-- What an evaluation works on. -/
structure Context where
  /-- The bindings in scope, outermost first. -/
  locals : List Binding
  /-- How many evaluations are in progress around. -/
  depth : Nat

/-- Something done in a context, which may ask questions and may fail. -/
abbrev Action := ExceptT Error (StateT Context Run)

namespace Action

variable {α : Type}

/-- Goes on with a result or fails with its error. -/
def ofExcept : Except Error α → Action α
  | .ok a => pure a
  | .error e => throw e

/-- Fails when the evaluation has been cancelled. -/
def checkpoint : Action Unit := do
  let tripped ← (Run.poll .done : Run Bool)
  if tripped then throw .cancelled

/-- Announces a top-level form. -/
def announce : Action Unit := (Run.formStart (.done ()) : Run Unit)

/-- Offers a value at a breakpoint and goes on with the answer. -/
def breakpoint (place : Coordinate) (now : Moment) (value : Value) : Action Value := do
  let context ← get
  let answer ← (Run.hit ⟨place, now, .capture context.locals⟩ value .done : Run Result)
  ofExcept answer

/-- Runs `body`, then changes the context, also when `body` fails. -/
def thenRestore (body : Action α) (restore : Context → Context) : Action α :=
  ExceptT.mk do
    let result ← body.run
    modify restore
    return result

/-- One level deeper. -/
def nested (body : Action α) : Action α := do
  modify fun c => { c with depth := c.depth + 1 }
  body.thenRestore fun c => { c with depth := c.depth - 1 }

/-- With bindings of its own in place of those in scope. -/
def withLocals (locals : List Binding) (body : Action α) : Action α := do
  let outer := (← get).locals
  modify fun c => { c with locals }
  body.thenRestore fun c => { c with locals := outer }

/-- Drops the bindings that `body` adds. -/
def inScope (body : Action α) : Action α := do
  let count := (← get).locals.length
  body.thenRestore fun c => { c with locals := c.locals.take count }

/-- Adds an innermost binding. -/
def addBinding (name : String) (value : Value) : Action Unit :=
  modify fun c => { c with locals := c.locals ++ [(name, value)] }

end Action

/-! ## Parts of forms

Each takes the evaluator `ev` for the forms inside. -/

/-- How the forms inside a form are evaluated. -/
abbrev Inner := Form → Coordinate → Moment → Action Value

/-- The value of a symbol: a local binding, else a built-in function. -/
def evalSymbol (name : String) : Action Value := do
  match lookup? name (← get).locals with
  | some value => return value
  | none =>
    match Builtin.named? name with
    | some f => return .builtin f
    | none => throw (.unresolved name)

/-- The values of the items from `position` on. -/
def evalItems (ev : Inner) (place : Coordinate) (now : Moment) :
    (position : Nat) → List Form → Action (List Value)
  | _, [] => return []
  | position, item :: items => do
    let value ← ev item (place.child position) (.item position :: now)
    let values ← evalItems ev place now (position + 1) items
    return value :: values

/-- The value of the last of the items from `position` on; before them it was
    `last`. -/
def evalBody (ev : Inner) (place : Coordinate) (now : Moment) (last : Value) :
    (position : Nat) → List Form → Action Value
  | _, [] => return last
  | position, item :: items => do
    let value ← ev item (place.child position) (.item position :: now)
    evalBody ev place now value (position + 1) items

/-- `(quote form)`. -/
def evalQuote : List Form → Action Value
  | [form] => return Value.ofForm form
  | _ => throw (.malformed .quoteCount)

/-- `(if test then else)`. -/
def evalIf (ev : Inner) (place : Coordinate) (now : Moment) (operands : List Form) :
    Action Value :=
  match operands with
  | [test, yes] => do
    let value ← ev test (place.child 1) (.item 1 :: now)
    if value.truthy then ev yes (place.child 2) (.item 2 :: now) else return .nil
  | [test, yes, no] => do
    let value ← ev test (place.child 1) (.item 1 :: now)
    if value.truthy then ev yes (place.child 2) (.item 2 :: now)
    else ev no (place.child 3) (.item 3 :: now)
  | _ => throw (.malformed .ifCount)

/-- Makes the bindings of a binding vector at `place`, in order; a name is
    looked at when its turn comes. -/
def evalBindings (ev : Inner) (place : Coordinate) (now : Moment) :
    (position : Nat) → List Form → Action Unit
  | position, name :: form :: rest => do
    match name.symbol? with
    | none => throw (.malformed .letName)
    | some name =>
      let value ← ev form (place.child (position + 1)) (.binding (position + 1) :: now)
      Action.addBinding name value
      evalBindings ev place now (position + 2) rest
  | _, _ => return ()

/-- `(let [name form ...] body ...)`. -/
def evalLet (ev : Inner) (place : Coordinate) (now : Moment) (operands : List Form) :
    Action Value :=
  match operands.head?.bind Form.vector? with
  | none => throw (.malformed .letVector)
  | some pairs =>
    if pairs.length % 2 ≠ 0 then throw (.malformed .letPairs)
    else Action.inScope do
      evalBindings ev (place.child 1) now 0 pairs
      evalBody ev place now .nil 2 operands.tail

/-- The names in a parameter vector. -/
def parameterNames (params : List Form) : Except Error (List String) :=
  params.mapM fun param => param.symbol?.elim (.error (.malformed .fnName)) .ok

/-- `(fn [name ...] body ...)`. -/
def evalFn (place : Coordinate) (now : Moment) (operands : List Form) : Action Value :=
  match operands.head?.bind Form.vector? with
  | none => throw (.malformed .fnVector)
  | some params => do
    let names ← Action.ofExcept (parameterNames params)
    return .closure now names operands.tail (← get).locals place

/-- The body of a function at `place`, called at `now`: the value of its last
    form. -/
def evalCallee (ev : Inner) (place : Coordinate) (now : Moment) (last : Value) :
    (position : Nat) → List Form → Action Value
  | _, [] => return last
  | position, form :: forms => do
    let value ← ev form (place.child (position + 2)) (.body position :: now)
    evalCallee ev place now value (position + 1) forms

/-- What stands for the head of a call that cannot be called. -/
def calleeText (head : Form) (callee : Value) : String := head.symbol?.getD callee.print

/-- Calls a value. -/
def apply (ev : Inner) (head : Form) (now : Moment) (callee : Value) (args : List Value) :
    Action Value :=
  match callee with
  | .builtin f => Action.ofExcept (f.call args)
  | .closure _ params body captured place =>
    if args.length ≠ params.length then
      throw (.arity "fn" (.exactly params.length) args.length)
    else
      Action.withLocals (captured ++ params.zip args) (evalCallee ev place now .nil 0 body)
  | other => throw (.notCallable (calleeText head other))

/-- The special forms. -/
inductive Special where
  | quote | body | branch | binding | function
  deriving DecidableEq, Repr

/-- The special form with the given name. -/
def Special.named? : String → Option Special
  | "quote" => some quote
  | "do" => some body
  | "if" => some branch
  | "let" => some binding
  | "fn" => some function
  | _ => none

/-- A list: a special form or a call; the empty list stands for itself. -/
def evalList (ev : Inner) (place : Coordinate) (now : Moment) : List Form → Action Value
  | [] => return .list []
  | head :: operands =>
    match head.symbol?.bind Special.named? with
    | some .quote => evalQuote operands
    | some .body => evalBody ev place now .nil 1 operands
    | some .branch => evalIf ev place now operands
    | some .binding => evalLet ev place now operands
    | some .function => evalFn place now operands
    | none => do
      let callee ← ev head (place.child 0) (.item 0 :: now)
      let args ← evalItems ev place now 1 operands
      apply ev head now callee args

/-- A form, given how those inside it are evaluated. -/
def evalInner (ev : Inner) (form : Form) (place : Coordinate) (now : Moment) : Action Value :=
  match form with
  | .nil => return .nil
  | .bool b => return .bool b
  | .int n => return .int n
  | .float x => return .float x
  | .str s => return .str s
  | .symbol name => evalSymbol name
  | .vector items => do
    Action.checkpoint
    return .vector (← evalItems ev place now 0 items)
  | .list items => do
    Action.checkpoint
    evalList ev place now items
  | .tagged form => do
    let value ← ev form place now
    Action.breakpoint place now value

/-! ## Evaluation -/

/-- A form with `room` levels of nesting left. -/
def evalForm : (room : Nat) → Inner
  | 0, _, _, _ => throw (.depthExceeded maxDepth)
  | room + 1, form, place, now =>
    Action.nested (evalInner (fun form place now => evalForm room form place now) form place now)

/-- A form in the context at hand. -/
def eval (form : Form) (place : Coordinate) (now : Moment) : Action Value := do
  evalForm (maxDepth - (← get).depth) form place now

/-- The forms of a program from `position` on; the value of the last one. -/
def evalFormsFrom (now : Moment) (last : Value) : (position : Nat) → List Form → Action Value
  | _, [] => return last
  | position, form :: forms => do
    Action.announce
    let value ← eval form .root (.form position :: now)
    evalFormsFrom now value (position + 1) forms

/-- The forms of a program; `nil` if there are none. -/
def evalForms (now : Moment) (forms : List Form) : Action Value := evalFormsFrom now .nil 0 forms

/-- A source text as a program. -/
def evalSource (now : Moment) (source : String) : Action Value :=
  match readForms source with
  | .error e => throw (.unreadable e)
  | .ok forms => evalForms now forms

/-- Runs an evaluation from its own context. -/
def Action.start {α : Type} (body : Action α) (locals : List Binding) :
    Run (Except Error α × Context) :=
  body.run.run ⟨locals, 0⟩

/-! ## Expressions in a snapshot -/

/-- A form with exactly the names of the snapshot bound; breakpoint tags in it
    let values pass. -/
def Snapshot.evaluateForm (s : Snapshot) (now : Moment) (form : Form) (tripped : Bool) :
    Result :=
  ((eval form .root now).start s.bindings |>.untouched tripped).1

/-- The only form of a text, evaluated in the snapshot. -/
def Snapshot.evaluate (s : Snapshot) (now : Moment) (text : String) (tripped : Bool) : Result :=
  match readForm text with
  | .error e => .error (.unreadable e)
  | .ok form => s.evaluateForm now form tripped

end Stepper.Eval
