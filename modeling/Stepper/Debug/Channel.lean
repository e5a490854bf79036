/-
  Prompts that wait for a reply.

  Every prompt has a key of its own, under which it is pending until the
  reply has been taken, the wait is given up, or the prompt could not be sent.
  Only the first reply to a pending key counts.
-/
import Stepper.Debug.Command
import Stepper.Debug.Attachment

namespace Stepper.Debug

open Stepper.Data Stepper.Eval

/-- The key of a prompt. -/
structure Key where
  text : String
  deriving DecidableEq, Repr

/-- The key of the `n`-th prompt. -/
def Key.nth (n : Nat) : Key := ⟨"input-" ++ toString n⟩

/-- A prompt under its key: what it asks for, and the reply if there is one. -/
structure Pending where
  key : Key
  kind : InputKind
  reply : Option (Except Error Reply)

/-- The prompts that are pending, oldest first. -/
structure Channel where
  /-- How many keys have been given out. -/
  issued : Nat
  pending : List Pending

/-- How it stands with the reply to a key. -/
inductive Awaited where
  /-- The reply is there and the key is forgotten. -/
  | taken (reply : Except Error Reply) (channel : Channel)
  | unanswered
  | notPending

namespace Channel

/-- No key has been given out. -/
def empty : Channel := ⟨0, []⟩

/-- The key of the next prompt. -/
def nextKey (channel : Channel) : Key := .nth (channel.issued + 1)

/-- Gives out a key. -/
def register (channel : Channel) (kind : InputKind) : Channel :=
  ⟨channel.issued + 1, channel.pending ++ [⟨channel.nextKey, kind, none⟩]⟩

/-- Forgets a key. -/
def forget (channel : Channel) (key : Key) : Channel :=
  { channel with pending := channel.pending.filter (·.key != key) }

/-- What is pending under a key. -/
def find? (channel : Channel) (key : Key) : Option Pending :=
  channel.pending.find? (·.key == key)

/-- Whether a reply to the key would count. -/
def accepts (channel : Channel) (key : Key) : Bool :=
  (channel.find? key).any (·.reply.isNone)

/-- Puts down the reply to a key, if it would count. -/
def submit (channel : Channel) (key : Key) (text : String) : Channel :=
  if channel.accepts key then
    { channel with
      pending := channel.pending.map fun p =>
        if p.key = key then { p with reply := some (Reply.parse p.kind text) } else p }
  else channel

/-- Takes the reply to a key. -/
def take (channel : Channel) (key : Key) : Awaited :=
  match channel.find? key with
  | none => .notPending
  | some p =>
    match p.reply with
    | some reply => .taken reply (channel.forget key)
    | none => .unanswered

/-- Waits for the reply to a key no longer than it takes to look, and gives up
    with `giveUp` when there is none.  A reply that is there wins over
    cancellation. -/
def await (channel : Channel) (key : Key) (tripped : Bool) (giveUp : Error) :
    Except Error Reply × Channel :=
  match channel.take key with
  | .taken reply channel => (reply, channel)
  | .notPending => (.error (.malformedReply (.notPending key.text)), channel)
  | .unanswered => (.error (if tripped then .cancelled else giveUp), channel.forget key)

/-- The fields of a prompt; the fields of `display` take precedence. -/
def promptBody (key : Key) (kind : InputKind) (prompt : String) (display : Json.Object) : Json.Object :=
  Table.insertAll display
    (Table.insertAll
      [("key", .string key.text), ("prompt", .string prompt), ("input-kind", kind.toJson)] [])

/-- Sends a prompt and gives its key, which is pending unless sending fails. -/
def request (channel : Channel) (net : Network) (client : Attachment) (kind : InputKind)
    (prompt : String) (display : Json.Object) : Except Error Key × Channel × Network :=
  let key := channel.nextKey
  let registered := channel.register kind
  match client.push ["awaiting-input"] (promptBody key kind prompt display) net with
  | (.ok (), net) => (.ok key, registered, net)
  | (.error e, net) => (.error e, registered.forget key, net)

end Channel

end Stepper.Debug
