/-
  What an evaluation does at a breakpoint.

  A breakpoint is worked off in moves, each of which touches the shared state
  at most once, so that others may act between any two of them.  `Pause` says
  where the evaluation stands, and `Pause.move` makes the next move:

    arrived → admitted → unskipped → asking → sending → awaiting → answered

  with `unattached` before `asking` while there is no client, `refused` after
  `sending` when the message is not accepted, and back from `answered` to
  `asking` when a command needs an expression or is to be followed by another.
  Every move but the one from `awaiting` lowers `Pause.rank` or ends the
  breakpoint (`rank_lt_of_move`).
-/
import Stepper.Eval.Evaluator
import Stepper.Debug.Debugger

namespace Stepper.Debug

open Stepper.Eval Stepper.Data

/-- What a prompt is for. -/
inductive Ask where
  | command
  /-- An expression whose value is to replace the one at hand. -/
  | inject
  /-- An expression whose value is to be shown. -/
  | eval
  deriving DecidableEq, Repr

namespace Ask

/-- What the client is asked for. -/
def kind : Ask → InputKind
  | command => .command
  | inject | eval => .expression

/-- The name of the prompt. -/
def prompt : Ask → String
  | command => "debug"
  | inject => "inject"
  | eval => "eval"

end Ask

/-- An exchange with a client: with whom, and what was last shown. -/
structure Dialog where
  client : Attachment
  shown : Option String
  deriving DecidableEq, Repr

/-- Where an evaluation stands at a breakpoint. -/
inductive Pause where
  | arrived
  /-- Not cancelled. -/
  | admitted
  /-- Not passed silently. -/
  | unskipped
  /-- Waiting for a client. -/
  | unattached
  /-- About to give out a key. -/
  | asking (dialog : Dialog) (ask : Ask)
  /-- The key is pending and the prompt about to be sent. -/
  | sending (dialog : Dialog) (ask : Ask) (key : Key)
  /-- The prompt was not accepted. -/
  | refused (key : Key) (connection : Nat)
  /-- The prompt is with the client. -/
  | awaiting (dialog : Dialog) (ask : Ask) (key : Key)
  /-- The reply has been taken. -/
  | answered (dialog : Dialog) (ask : Ask) (reply : Except Error Reply)

namespace Pause

/-- How far a breakpoint is from its next halt. -/
def rank : Pause → Nat
  | arrived => 8
  | admitted => 7
  | unskipped => 6
  | unattached => 5
  | answered .. => 4
  | asking .. => 3
  | sending .. => 2
  | refused .. => 1
  | awaiting .. => 0

end Pause

/-- A breakpoint that an evaluation has reached. -/
structure Hit where
  ticket : Ticket
  session : String
  site : Site
  value : Value

namespace Hit

/-- The moment at which expressions of the client are evaluated. -/
def replyMoment (hit : Hit) : Moment := .reply :: hit.site.moment

/-- The value of an expression of the client. -/
def evaluate (hit : Hit) (form : Syntax.Form) (tripped : Bool) : Result :=
  hit.site.snapshot.evaluateForm hit.replyMoment form tripped

/-- The bindings in sight, as text. -/
def localsJson (hit : Hit) : Json :=
  .object (Table.insertAll
    (hit.site.snapshot.bindings.map fun (name, value) => (name, .string value.print)) [])

/-- The coordinate as an array of numbers. -/
def placeJson (hit : Hit) : Json :=
  .array (hit.site.place.path.map fun step => .nat step.toNat)

/-- What prompts show. -/
def display (hit : Hit) (shown : Option String) : Json.Object :=
  Table.insertAll
    ([("value", .string hit.value.print), ("coordinate", hit.placeJson),
      ("locals", hit.localsJson), ("session", .string hit.session)]
      ++ shown.toList.map fun text => ("eval-result", .string text)) []

/-- The fields of a prompt. -/
def promptBody (hit : Hit) (dialog : Dialog) (ask : Ask) (key : Key) : Json.Object :=
  Channel.promptBody key ask.kind ask.prompt (hit.display dialog.shown)

end Hit

/-- The outcome of a move. -/
inductive Move where
  /-- Nothing can be done for now. -/
  | blocked
  | goTo (pause : Pause) (d : Debugger)
  /-- The breakpoint is over. -/
  | resume (answer : Result) (d : Debugger)

/-- How the value of an expression is shown. -/
def shownText : Result → String
  | .ok value => value.print
  | .error e => "#error " ++ e.message

/-- Obeys a command. -/
def Hit.obey (hit : Hit) (d : Debugger) (dialog : Dialog) : Command → Move
  | .next => .resume (.ok hit.value) d
  | .proceed => .resume (.ok hit.value) (d.setPolicy hit.session .everything)
  | .out => .resume (.ok hit.value) (d.setPolicy hit.session (.below hit.site.place.parent))
  | .inject => .goTo (.asking dialog .inject) d
  | .eval => .goTo (.asking dialog .eval) d
  | .quit => .resume (.error .cancelled) (d.trip hit.ticket)

/-- Goes on from a reply that has been taken. -/
def Hit.react (hit : Hit) (d : Debugger) (dialog : Dialog) :
    Ask → Except Error Reply → Move
  | _, .error e => .resume (.error e) d
  | .command, .ok (.command c) => hit.obey d dialog c
  | .command, .ok (.expression _) => .resume (.error (.malformedReply .expectedCommand)) d
  | _, .ok (.command _) => .resume (.error (.malformedReply .expectedExpression)) d
  | .inject, .ok (.expression form) => .resume (hit.evaluate form (d.isTripped hit.ticket)) d
  | .eval, .ok (.expression form) =>
    match hit.evaluate form (d.isTripped hit.ticket) with
    | .error .cancelled => .resume (.error .cancelled) d
    | result => .goTo (.asking { dialog with shown := some (shownText result) } .command) d

namespace Pause

/-- The next move of an evaluation that stands at a breakpoint. -/
def move (hit : Hit) (d : Debugger) : Pause → Move
  | arrived =>
    if d.isTripped hit.ticket then .resume (.error .cancelled) d else .goTo admitted d
  | admitted =>
    if d.sessions.skips hit.session hit.site.place then .resume (.ok hit.value) d
    else .goTo unskipped d
  | unskipped =>
    match d.slot, d.settings.detached with
    | some a, _ => .goTo (asking ⟨a, none⟩ .command) d
    | none, .fail => .resume (.error (.noDebugger hit.site.place)) d
    | none, .block => .goTo unattached d
  | unattached =>
    match d.slot.wait? (d.isTripped hit.ticket) with
    | none => .blocked
    | some (.ok a) => .goTo (asking ⟨a, none⟩ .command) d
    | some (.error e) => .resume (.error e) d
  | asking dialog ask =>
    .goTo (sending dialog ask d.channel.nextKey)
      { d with channel := d.channel.register ask.kind }
  | sending dialog ask key =>
    match dialog.client.push ["awaiting-input"] (hit.promptBody dialog ask key) d.net with
    | (.ok (), net) => .goTo (awaiting dialog ask key) { d with net }
    | (.error _, net) => .goTo (refused key dialog.client.connection) { d with net }
  | refused key connection =>
    .resume (.error (.connectionClosed connection)) { d with channel := d.channel.forget key }
  | awaiting dialog ask key =>
    match d.channel.take key with
    | .taken reply channel => .goTo (answered dialog ask reply) { d with channel }
    | .notPending => .resume (.error (.malformedReply (.notPending key.text))) d
    | .unanswered =>
      if d.isTripped hit.ticket then
        .resume (.error .cancelled) { d with channel := d.channel.forget key }
      else .blocked
  | answered dialog ask reply => hit.react d dialog ask reply

/-- Gives up waiting for a reply. -/
def expire (d : Debugger) : Pause → Move
  | awaiting _ _ key =>
    .resume (.error (.replyTimeout key.text)) { d with channel := d.channel.forget key }
  | _ => .blocked

/-- The prompt that is with the client, if there is one. -/
def prompt? : Pause → Option Key
  | awaiting _ _ key => some key
  | _ => none

theorem rank_lt_of_move {hit : Hit} {d d' : Debugger} {p q : Pause} (h : p.prompt? = none)
    (moved : p.move hit d = .goTo q d') : q.rank < p.rank := by
  cases p with
  | awaiting => cases h
  | arrived | admitted =>
    simp only [move] at moved
    split at moved <;> cases moved
    decide
  | unskipped =>
    simp only [move] at moved
    split at moved <;> cases moved <;> simp [rank]
  | unattached =>
    simp only [move] at moved
    split at moved <;> cases moved
    simp [rank]
  | asking =>
    simp only [move] at moved
    cases moved
    simp [rank]
  | sending =>
    simp only [move] at moved
    split at moved <;> cases moved <;> simp [rank]
  | refused =>
    simp only [move] at moved
    cases moved
  | answered dialog ask reply =>
    simp only [move, Hit.react] at moved
    split at moved
    · cases moved
    · simp only [Hit.obey] at moved
      split at moved <;> cases moved <;> simp [rank]
    · cases moved
    · cases moved
    · cases moved
    · split at moved <;> cases moved
      simp [rank]

end Pause

end Stepper.Debug
