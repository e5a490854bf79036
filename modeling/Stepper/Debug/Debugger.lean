/-
  The debugger: everything that evaluations and clients share.

  The state holds the sessions, the pending prompts, the attachment, the
  connections and the evaluations that have been cancelled.  The operations
  here are those of clients; what an evaluation does at a breakpoint is in
  `Breakpoint`.
-/
import Stepper.Debug.Session
import Stepper.Debug.Channel

namespace Stepper.Debug

open Stepper.Eval

/-- What a breakpoint does when no client is attached. -/
inductive DetachedPolicy where
  /-- The evaluation fails. -/
  | fail
  /-- The evaluation waits for a client. -/
  | block
  deriving DecidableEq, Repr

/-- Settings of the debugger. -/
structure Settings where
  detached : DetachedPolicy
  /-- How long to wait for a reply, in milliseconds; for ever if absent. -/
  replyTimeout : Option Nat
  deriving DecidableEq, Repr

/-- A breakpoint without a client fails; replies may take for ever. -/
def Settings.default : Settings := ⟨.fail, none⟩

/-- The shared state. -/
structure Debugger where
  settings : Settings
  sessions : SessionStore
  channel : Channel
  slot : AttachmentSlot
  net : Network
  /-- The evaluations that have been cancelled. -/
  tripped : List Ticket
  /-- How many tickets have been given out. -/
  tickets : Nat

namespace Debugger

/-- Before anything has happened. -/
def new (settings : Settings) : Debugger :=
  { settings, sessions := .empty, channel := .empty, slot := none, net := .empty,
    tripped := [], tickets := 0 }

/-- Whether an evaluation has been cancelled. -/
def isTripped (d : Debugger) (ticket : Ticket) : Bool := d.tripped.contains ticket

/-- Cancels an evaluation. -/
def trip (d : Debugger) (ticket : Ticket) : Debugger := { d with tripped := ticket :: d.tripped }

/-- Gives out a ticket. -/
def takeTicket (d : Debugger) : Ticket × Debugger := (d.tickets, { d with tickets := d.tickets + 1 })

/-- A client asks to be attached. -/
def attach (d : Debugger) (a : Attachment) (force : Bool) : AttachOutcome × Debugger :=
  let (outcome, slot, net) := d.slot.attach d.net a force
  (outcome, { d with slot, net })

/-- A connection ends. -/
def release (d : Debugger) (connection : Nat) : Debugger :=
  { d with slot := d.slot.detach connection }

/-- Whether a reply to a key would count. -/
def accepts (d : Debugger) (key : Key) : Bool := d.channel.accepts key

/-- A client replies. -/
def submit (d : Debugger) (key : Key) (text : String) : Debugger :=
  { d with channel := d.channel.submit key text }

/-- Sets the policy of a session. -/
def setPolicy (d : Debugger) (session : String) (policy : SkipPolicy) : Debugger :=
  { d with sessions := d.sessions.setPolicy session policy }

/-- Closes a session: its evaluations are cancelled and it is forgotten.  The
    answer is whether it was known. -/
def close (d : Debugger) (session : String) : Bool × Debugger :=
  -- Nobody is woken here: an evaluation that waits looks again with each step.
  -- That loses no wake-up, because all that can end a wait (an attachment, a
  -- reply, a cancellation) notifies those who wait.
  match d.sessions.close? session with
  | none => (false, d)
  | some (running, sessions) =>
    (true, { d with sessions, tripped := running ++ d.tripped })

/-- Changes the connections. -/
def mapNet (d : Debugger) (change : Network → Network) : Debugger := { d with net := change d.net }

end Debugger

end Stepper.Debug
