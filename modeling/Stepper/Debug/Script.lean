/-
  Scripted clients.

  A script is a list of things that clients do.  An evaluation that a script
  starts comes with the replies to its prompts: each prompt that reaches a
  client takes the next one, and is left unanswered when there is none.  A
  reply may itself be a list of steps, which are run while the prompt is with
  the client.

  `Script.run` plays a script and tells, step by step, what came of it.
-/
import Stepper.Debug.Evaluation

namespace Stepper.Debug

open Stepper.Eval

/-! ## Scripts -/

mutual
/-- Something that clients do. -/
inductive ScriptStep where
  | attach (client : Attachment) (force : Bool)
  | setRefusing (connection : Nat) (on : Bool)
  | release (connection : Nat)
  /-- A reply to the given key, or to the prompt at hand. -/
  | submit (input : String) (key : Option Key)
  | close (session : String)
  | setPolicy (session : String) (policy : SkipPolicy)
  /-- Evaluate and wait for the end. -/
  | evaluate (session code : String) (replies : List ScriptReply)
  /-- Reach a breakpoint outside any evaluation of the session. -/
  | reach (session : String) (place : Coordinate) (value : Value) (locals : List Binding)
      (cancelled : Bool) (replies : List ScriptReply)
  /-- Cancel the breakpoint that was reached last. -/
  | cancel
  /-- Start an evaluation that goes on by itself. -/
  | spawn (session code : String) (replies : List ScriptReply)
  /-- Wait for the end of the evaluation that goes on by itself. -/
  | join

/-- What a client does with a prompt. -/
inductive ScriptReply where
  | nothing
  | text (input : String)
  | steps (steps : List ScriptStep)
end

/-- What a step gives. -/
inductive ScriptAnswer where
  | nothing
  | flag (b : Bool)
  | attach (outcome : AttachOutcome)
  | outcome (outcome : Outcome)
  | reached (result : Result) (cancelled : Bool)

/-- Something that is seen while a step is run. -/
inductive ScriptEvent where
  | sent (delivery : Delivery)
  /-- A step inside a reply has been run. -/
  | did (step : ScriptStep) (answer : ScriptAnswer)

/-- An evaluation that goes on by itself, and the replies it has left. -/
structure Background where
  evaluation : Evaluation
  replies : List ScriptReply

/-- A script in progress. -/
structure Stand where
  debugger : Debugger
  /-- Last event first. -/
  events : List ScriptEvent
  /-- The prompts at hand, last one first. -/
  prompts : List Key
  /-- The breakpoints reached outside evaluations, last one first. -/
  reached : List Ticket
  background : List Background

namespace Stand

/-- Before the first step. -/
def start (settings : Settings) : Stand := ⟨.new settings, [], [], [], []⟩

/-- Takes over the state of the debugger; the messages offered since become
    events. -/
def update (s : Stand) (d : Debugger) : Stand :=
  { s with
    debugger := d.mapNet fun net => { net with offered := [] }
    events := (d.net.offered.map .sent).reverse ++ s.events }

/-- Adds an event. -/
def note (s : Stand) (event : ScriptEvent) : Stand := { s with events := event :: s.events }

end Stand

namespace Script

mutual
/-- The number of steps and replies in a step. -/
def stepSize : ScriptStep → Nat
  | .evaluate _ _ replies | .reach _ _ _ _ _ replies | .spawn _ _ replies => repliesSize replies + 1
  | _ => 1

/-- The number of steps and replies in some replies. -/
def repliesSize : List ScriptReply → Nat
  | [] => 1
  | reply :: replies => replySize reply + repliesSize replies

/-- The number of steps and replies in a reply. -/
def replySize : ScriptReply → Nat
  | .steps steps => stepsSize steps + 1
  | _ => 1

/-- The number of steps and replies in some steps. -/
def stepsSize : List ScriptStep → Nat
  | [] => 1
  | step :: steps => stepSize step + stepsSize steps
end

/-- How an evaluation has ended. -/
def outcomeOf (e : Evaluation) : Outcome := .ofResult (e.result?.getD (.error .cancelled))

/-! ## Playing a script

Every function takes a bound on the number of steps and replies it may still
play. -/

mutual
/-- Lets an evaluation go on, with the given replies, until it has ended or
    waits for a client. -/
def drive : (bound : Nat) → Evaluation → List ScriptReply → Stand →
    Evaluation × List ScriptReply × Stand
  | 0, e, replies, s => (e, replies, s)
  | bound + 1, e, replies, s =>
    let (e, d) := e.settle s.debugger
    let s := s.update d
    match e.prompt? with
    | none => (e, replies, s)
    | some key =>
      let s := reply bound key (replies.head?.getD .nothing) s
      let (e, d) := e.proceedUnanswered s.debugger
      drive bound e replies.tail (s.update d)

/-- What a client does with the prompt of the given key. -/
def reply : (bound : Nat) → Key → ScriptReply → Stand → Stand
  | 0, _, _, s => s
  | bound + 1, key, r, s =>
    match r with
    | .nothing => s
    | .text input => s.update (s.debugger.submit key input)
    | .steps steps =>
      let s := inner bound steps { s with prompts := key :: s.prompts }
      { s with prompts := s.prompts.tail }

/-- Runs the steps of a reply. -/
def inner : (bound : Nat) → List ScriptStep → Stand → Stand
  | 0, _, s => s
  | _, [], s => s
  | bound + 1, step :: steps, s =>
    let (answer, s) := play bound step s
    inner bound steps (s.note (.did step answer))

/-- Runs a step. -/
def play : (bound : Nat) → ScriptStep → Stand → ScriptAnswer × Stand
  | 0, _, s => (.nothing, s)
  | bound + 1, step, s =>
    match step with
    | .attach client force =>
      let (outcome, d) := s.debugger.attach client force
      (.attach outcome, wake bound (s.update d))
    | .setRefusing connection on =>
      (.nothing, s.update (s.debugger.mapNet (·.setRefusing connection on)))
    | .release connection => (.nothing, s.update (s.debugger.release connection))
    | .submit input key? =>
      match key?.or s.prompts.head? with
      | none => (.flag false, s)
      | some key =>
        (.flag (s.debugger.accepts key), wake bound (s.update (s.debugger.submit key input)))
    | .close session =>
      let (known, d) := s.debugger.close session
      (.flag known, wake bound (s.update d))
    | .setPolicy session policy => (.nothing, s.update (s.debugger.setPolicy session policy))
    | .evaluate session code replies =>
      let (e, d) := s.debugger.start session code
      let (e, _, s) := drive bound e replies (s.update d)
      (.outcome (outcomeOf e), s)
    | .reach session place value locals cancelled replies =>
      let (e, d) := s.debugger.startAt session ⟨place, [], .capture locals⟩ value
      let d := if cancelled then d.trip e.ticket else d
      let (e, _, s) := drive bound e replies { s.update d with reached := e.ticket :: s.reached }
      let result := e.result?.getD (.error .cancelled)
      (.reached result (s.debugger.isTripped e.ticket), { s with reached := s.reached.tail })
    | .cancel =>
      match s.reached with
      | [] => (.nothing, s)
      | ticket :: _ => (.nothing, s.update (s.debugger.trip ticket))
    | .spawn session code replies =>
      let (e, d) := s.debugger.start session code
      let (e, replies, s) := drive bound e replies (s.update d)
      (.nothing, { s with background := s.background ++ [⟨e, replies⟩] })
    | .join =>
      match s.background with
      | [] => (.nothing, s)
      | b :: rest => (.outcome (outcomeOf b.evaluation), { s with background := rest })

/-- Lets the evaluations in the background go on where they can. -/
def wake : (bound : Nat) → Stand → Stand
  | 0, s => s
  | bound + 1, s =>
    let go := fun (acc : Stand) (b : Background) =>
      match b.evaluation.step? acc.debugger with
      | none => { acc with background := acc.background ++ [b] }
      | some (e, d) =>
        let (e, replies, acc) := drive bound e b.replies (acc.update d)
        { acc with background := acc.background ++ [⟨e, replies⟩] }
    s.background.foldl go { s with background := [] }
end

/-- What came of a step: the answer, the events, and the state of the debugger
    after it.  While an evaluation goes on by itself, only the answer is told,
    and the events come with the step that ends the wait for it. -/
structure Report where
  answer : ScriptAnswer
  rest : Option (List ScriptEvent × Debugger)

/-- Runs the steps of a script and reports on each. -/
def reports (bound : Nat) : List ScriptStep → Stand → List Report
  | [], _ => []
  | step :: steps, s =>
    let (answer, s) := play bound step s
    if s.background.isEmpty then
      ⟨answer, some (s.events.reverse, s.debugger)⟩ :: reports bound steps { s with events := [] }
    else ⟨answer, none⟩ :: reports bound steps s

/-- Plays a script from the beginning. -/
def run (settings : Settings) (steps : List ScriptStep) : List Report :=
  reports (4 * stepsSize steps + 8) steps (.start settings)

end Script

end Stepper.Debug
