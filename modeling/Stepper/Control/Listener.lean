/-
  The server behind its endpoint.

  Clients write bytes; the server takes what they write line by line.  A line
  ends at a line feed, before which one carriage return does not count, and
  what is left when a client has closed its end is a line too.  Bytes that are
  no text end the reading as if the client had closed, and lines of blanks are
  passed over.  When the reader dies of a line, nothing more is read from the
  client, and the attachment that it may hold stays.  The host grants threads.

  `Listener.write` and `Listener.close` give the lines that clients receive.
-/
import Stepper.Text.Blank
import Stepper.Control.Endpoint
import Stepper.Control.Server

namespace Stepper.Control

open Stepper.Host Stepper.Debug

/-! ## Lines -/

/-- Bytes cut at the line feeds: the lines, and what comes after the last
    line feed. -/
def cutLines (bytes : List UInt8) : List (List UInt8) × List UInt8 :=
  bytes.foldr cut ([], [])
where
  /-- Puts a byte before what has been cut. -/
  cut (byte : UInt8) : List (List UInt8) × List UInt8 → List (List UInt8) × List UInt8
    | (lines, rest) =>
      if byte = 10 then ([] :: lines, rest)
      else
        match lines with
        | [] => ([], byte :: rest)
        | line :: lines => ((byte :: line) :: lines, rest)

theorem flatMap_cutLines (bytes : List UInt8) :
    (cutLines bytes).1.flatMap (· ++ [10]) ++ (cutLines bytes).2 = bytes := by
  induction bytes with
  | nil => rfl
  | cons byte bytes ih =>
    change (cutLines.cut byte (cutLines bytes)).1.flatMap (· ++ [10])
      ++ (cutLines.cut byte (cutLines bytes)).2 = byte :: bytes
    generalize cutLines bytes = cutOff at ih
    obtain ⟨lines, rest⟩ := cutOff
    simp only [cutLines.cut]
    split
    · rename_i feed
      simp_all
    · cases lines with
      | nil => simp_all
      | cons line lines => simp_all

/-- A line without a carriage return at its end. -/
def dropReturn (line : List UInt8) : List UInt8 :=
  if line.getLast? = some 13 then line.dropLast else line

/-- The text in UTF-8. -/
def decodeText? (bytes : List UInt8) : Option String := String.fromUTF8? bytes.toByteArray

/-- The bytes of a text in UTF-8. -/
def encodeText (text : String) : List UInt8 := text.toUTF8.data.toList

/-! ## Clients -/

/-- A line that a client receives. -/
structure Received where
  recipient : Nat
  line : String
  deriving DecidableEq, Repr

/-- What is known about a connection. -/
structure Client where
  /-- What the client has written after its last line feed. -/
  unread : List UInt8
  /-- Whether the server still reads from it. -/
  isOpen : Bool

/-- The server, its endpoint and its clients, the first of which has
    number one. -/
structure Listener where
  endpoint : Endpoint
  host : Surroundings
  server : Server
  clients : List Client

namespace Listener

/-- Starts to listen. -/
def listen (host : Surroundings) (endpoint : Endpoint) (settings : Settings) :
    Except ListenFault Listener :=
  (endpoint.bind host).map fun host => ⟨endpoint, host, .new settings, []⟩

/-- A client connects and gets the next number; over addresses this takes a
    network. -/
def connect (l : Listener) : Except HostFault (Nat × Listener) :=
  let accepted :=
    let (number, server) := l.server.connect
    .ok (number, { l with server, clients := l.clients ++ [⟨[], true⟩] })
  match l.endpoint with
  | .unix _ => accepted
  | .tcp _ => if l.host.network then accepted else .error .networkDown

/-- The line of a message; messages that fail are received by nobody. -/
def ofDelivery (delivery : Delivery) : Option Received :=
  if delivery.failed then none else some ⟨delivery.recipient, (Json.object delivery.message).print⟩

/-- The server takes a line, and all evaluations go on as far as they can. -/
def takeLine (server : Server) (number : Nat) (line : String) : List Received × Server :=
  if line.toList.all Text.isBlank then ([], server)
  else
    let (response, server) := server.handle number line
    let (deliveries, server) := server.rest.drain
    (response.toList.map (fun r => ⟨number, r.line⟩) ++ deliveries.filterMap ofDelivery, server)

/-- Whether the reader lives on when a line has been taken. -/
def survives (server : Server) (number : Nat) (line : String) : Bool :=
  line.toList.all Text.isBlank || (server.take .granted number line).1.survived

/-- How the reading of some lines ends. -/
inductive Reading where
  /-- All of them have been taken. -/
  | all
  /-- With a line that is no text. -/
  | noText
  /-- With a line of which the reader has died. -/
  | died
  deriving DecidableEq, Repr

/-- The server takes lines up to the first that is no text, or of which the
    reader dies. -/
def takeLines (number : Nat) : List (List UInt8) → Server → Reading × List Received × Server
  | [], server => (.all, [], server)
  | line :: lines, server =>
    match decodeText? line with
    | none => (.noText, [], server)
    | some text =>
      let (received, after) := takeLine server number text
      if survives server number text then
        let (reading, more, after) := takeLines number lines after
        (reading, received ++ more, after)
      else (.died, received, after)

/-- The state of a client. -/
def client (l : Listener) (number : Nat) : Client := l.clients.getD (number - 1) ⟨[], false⟩

/-- Changes the state of a client. -/
def setClient (l : Listener) (number : Nat) (client : Client) : Listener :=
  { l with clients := l.clients.set (number - 1) client }

/-- Nothing more is read from a client. -/
def abandon (l : Listener) (number : Nat) : Listener := l.setClient number ⟨[], false⟩

/-- The server stops reading from a client and releases its connection. -/
def finish (l : Listener) (number : Nat) : Listener :=
  { l.abandon number with server := l.server.release number }

/-- A client writes. -/
def write (l : Listener) (number : Nat) (bytes : List UInt8) : List Received × Listener :=
  let client := l.client number
  if client.isOpen then
    let (lines, rest) := cutLines (client.unread ++ bytes)
    let (reading, received, server) := takeLines number (lines.map dropReturn) l.server
    let l := { l with server }
    let l := match reading with
      | .all => l.setClient number ⟨rest, true⟩
      | .noText => l.finish number
      | .died => l.abandon number
    (received, l)
  else ([], l)

/-- A client closes its end; it may still receive. -/
def close (l : Listener) (number : Nat) : List Received × Listener :=
  let client := l.client number
  if client.isOpen then
    let last := if client.unread.isEmpty then [] else [client.unread]
    let (reading, received, server) := takeLines number last l.server
    let l := { l with server }
    let l := match reading with
      | .all | .noText => l.finish number
      | .died => l.abandon number
    (received, l)
  else ([], l)

end Listener

end Stepper.Control
