/-
  The client that is attached.

  At most one client is attached; it is known by its connection and by the
  request with which it attached, whose id all its prompts bear.  A client
  that is replaced is told that its request is done.

  `Network` stands for the connections: which of them refuse messages, and
  all messages offered so far.
-/
import Stepper.Json.Basic
import Stepper.Eval.Error

namespace Stepper.Debug

open Stepper.Data Stepper.Eval

/-! ## Messages -/

/-- A message offered to a connection. -/
structure Delivery where
  recipient : Nat
  message : Json.Object
  failed : Bool

/-- The connections. -/
structure Network where
  /-- Those that refuse messages. -/
  refusing : List Nat
  /-- The messages offered, oldest first. -/
  offered : List Delivery

namespace Network

/-- All connections accept messages, and none was offered. -/
def empty : Network := ⟨[], []⟩

/-- Whether a connection accepts messages. -/
def accepts (net : Network) (connection : Nat) : Bool := !net.refusing.contains connection

/-- Offers a message to a connection. -/
def offer (net : Network) (connection : Nat) (message : Json.Object) : Network :=
  { net with offered := net.offered ++ [⟨connection, message, !net.accepts connection⟩] }

/-- Lets a connection refuse messages from now on, or accept them. -/
def setRefusing (net : Network) (connection : Nat) (on : Bool) : Network :=
  let others := net.refusing.filter (· != connection)
  { net with refusing := if on then connection :: others else others }

end Network

/-! ## Attachments -/

/-- A client and the request with which it attached. -/
structure Attachment where
  connection : Nat
  request : Nat
  deriving DecidableEq, Repr

/-- A message to the client: the given fields, the id of its request and a
    status. -/
def Attachment.message (a : Attachment) (status : List String) (body : Json.Object) : Json.Object :=
  (body.insert "id" (.nat a.request)).insert "status" (.strings status)

/-- Sends a message to the client. -/
def Attachment.push (a : Attachment) (status : List String) (body : Json.Object) (net : Network) :
    Except Error Unit × Network :=
  (if net.accepts a.connection then .ok () else .error (.connectionClosed a.connection),
   net.offer a.connection (a.message status body))

/-- How a request to attach ends. -/
inductive AttachOutcome where
  | attached
  | replaced (previous : Nat)
  | kept (current : Nat)
  deriving DecidableEq, Repr

/-- The place for one attachment. -/
abbrev AttachmentSlot := Option Attachment

namespace AttachmentSlot

/-- A client asks to be attached; only with `force` does it replace another
    one, which is told so. -/
def attach (slot : AttachmentSlot) (net : Network) (a : Attachment) (force : Bool) :
    AttachOutcome × AttachmentSlot × Network :=
  match slot with
  | none => (.attached, some a, net)
  | some previous =>
    if force then
      (.replaced previous.request, some a, (previous.push ["done"] [] net).2)
    else (.kept previous.request, slot, net)

/-- Whether the attachment belongs to a connection. -/
def heldBy (slot : AttachmentSlot) (connection : Nat) : Bool :=
  slot.any (·.connection == connection)

/-- A connection ends: its attachment ends with it. -/
def detach (slot : AttachmentSlot) (connection : Nat) : AttachmentSlot :=
  if slot.heldBy connection then none else slot

/-- What waiting for an attachment gives, `none` when there is nothing yet. -/
def wait? (slot : AttachmentSlot) (tripped : Bool) : Option (Except Error Attachment) :=
  if tripped then some (.error .cancelled) else slot.map .ok

end AttachmentSlot

end Stepper.Debug
