/-
  The control server.

  The server takes requests line by line from numbered connections.  Most are
  answered at once; an evaluation is answered when it ends, and a client that
  attaches is answered when it is replaced.  An evaluation has a thread of its
  own: if the host refuses it, the request is answered at once, and if it
  cannot be named after the session, the reader of the connection dies.

  `Server.take` takes in a line, `Server.rest` lets all evaluations go on until
  each has ended or waits.
-/
import Stepper.Control.Request
import Stepper.Debug.Evaluation
import Stepper.Host.Thread

namespace Stepper.Control

open Stepper.Debug Stepper.Eval Stepper.Host

/-- An evaluation and the request that asked for it. -/
structure Job where
  evaluation : Evaluation
  connection : Nat
  request : Nat

/-- The answer to a request for an evaluation that has ended. -/
def answerTo (request : Nat) : Outcome → Response
  | .value v => .done request [("value", .string v.print)]
  | .error e => { Response.rejected request e.message with status := ["eval-error", "done"] }
  | .aborted => { Response.done request [] with status := ["aborted", "done"] }

/-- The name of the thread of an evaluation. -/
def threadName (session : String) : String := "tarry-eval-" ++ session

/-- What comes of a line. -/
inductive Handled where
  /-- It is answered now. -/
  | respond (response : Response)
  /-- The answer comes later, if any comes. -/
  | deferred
  /-- The reader of the connection dies, with these last words. -/
  | died (words : String)

namespace Handled

/-- The response that is given at once. -/
def response? : Handled → Option Response
  | respond response => some response
  | deferred | died _ => none

theorem response?_eq_some_iff {handled : Handled} {response : Response} :
    handled.response? = some response ↔ handled = .respond response := by
  cases handled <;> simp [response?]

/-- Whether the reader goes on to the next line. -/
def survived : Handled → Bool
  | died _ => false
  | respond _ | deferred => true

end Handled

/-- The state of the server. -/
structure Server where
  debugger : Debugger
  /-- The evaluations that have not been answered, oldest first. -/
  jobs : List Job
  /-- How many connections there have been. -/
  connections : Nat

namespace Server

/-- Before the first connection. -/
def new (settings : Settings) : Server := ⟨.new settings, [], 0⟩

/-- A client connects; connections are numbered from one. -/
def connect (s : Server) : Nat × Server :=
  (s.connections + 1, { s with connections := s.connections + 1 })

/-- Starts an evaluation of `code` in a session; it is not answered yet. -/
def evaluate (s : Server) (connection id : Nat) (session code : String) : Server :=
  let (e, d) := s.debugger.start session code
  { s with debugger := d, jobs := s.jobs ++ [⟨e, connection, id⟩] }

/-- Carries out an operation. -/
def perform (s : Server) (threads : Threads) (connection id : Nat) : Operation → Handled × Server
  | .attach force =>
    let (outcome, d) := s.debugger.attach ⟨connection, id⟩ force
    let handled := match outcome with
      | .kept _ => .respond (.done id [])
      | .attached | .replaced _ => .deferred
    (handled, { s with debugger := d })
  | .reply key input =>
    (.respond (.done id []), { s with debugger := s.debugger.submit ⟨key⟩ input })
  | .evaluate session code =>
    match threads.spawn (threadName session) with
    | .started => (.deferred, s.evaluate connection id session code)
    | .refused reason =>
      (.respond (.rejected id ("failed to start evaluation: " ++ reason)), s)
    | .died words => (.died words, s)
  | .close session => (.respond (.done id []), { s with debugger := (s.debugger.close session).2 })
  | .sessions => (.respond (.done id [("sessions", .strings s.debugger.sessions.names)]), s)

/-- Takes in a line that arrives on a connection. -/
def take (s : Server) (threads : Threads) (connection : Nat) (line : String) : Handled × Server :=
  match Request.ofLine line with
  | .error fault => (.respond (.rejected 0 ("invalid request: " ++ fault.message)), s)
  | .ok request =>
    match Operation.ofRequest? request with
    | none => (.respond (.rejected request.id ("unsupported request '" ++ request.type ++ "'")), s)
    | some (.error fault) =>
      (.respond (.rejected request.id ("invalid params: " ++ fault.message)), s)
    | some (.ok operation) => s.perform threads connection request.id operation

/-- Handles a line while the host grants every thread: the response that is
    given at once, and what becomes of the server. -/
def handle (s : Server) (connection : Nat) (line : String) : Option Response × Server :=
  let (handled, s) := s.take .granted connection line
  (handled.response?, s)

/-- Lets an evaluation go on until it waits, or has ended and is answered. -/
def advance (d : Debugger) (job : Job) : Option Job × Debugger :=
  let (e, d) := job.evaluation.proceed d
  match e.result? with
  | none => (some { job with evaluation := e }, d)
  | some result =>
    let response := answerTo job.request (.ofResult result)
    (none, d.mapNet (·.offer job.connection response.message))

/-- Lets all evaluations go on, the oldest first. -/
def rest (s : Server) : Server :=
  let (d, jobs) := s.jobs.foldl (fun (d, jobs) job =>
    let (job?, d) := advance d job
    (d, jobs ++ job?.toList)) (s.debugger, [])
  { s with debugger := d, jobs }

/-- A connection ends: the attachment it holds ends with it. -/
def release (s : Server) (connection : Nat) : Server :=
  { s with debugger := s.debugger.release connection }

/-- Hands over the messages offered so far. -/
def drain (s : Server) : List Delivery × Server :=
  (s.debugger.net.offered,
   { s with debugger := s.debugger.mapNet fun net => { net with offered := [] } })

end Server

end Stepper.Control
