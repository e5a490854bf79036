/-
  Sessions.

  A session says which breakpoints are passed silently and which evaluations
  run in it.  The store forgets a session only when it is closed; a session
  that it does not know passes no breakpoint.
-/
import Stepper.Data.Table
import Stepper.Eval.Coordinate

namespace Stepper.Debug

open Stepper.Data Stepper.Eval

/-- Which breakpoints are passed silently. -/
inductive SkipPolicy where
  | nothing
  | everything
  /-- The breakpoints properly inside the form at a coordinate. -/
  | below (ancestor : Coordinate)
  deriving DecidableEq, Repr

namespace SkipPolicy

/-- Whether a breakpoint is passed. -/
def skips : SkipPolicy → Coordinate → Bool
  | nothing, _ => false
  | everything, _ => true
  | below ancestor, place => ancestor.isAbove place

/-- What is left of a policy when a new top-level form begins. -/
def atTopLevel : SkipPolicy → SkipPolicy
  | below _ => nothing
  | policy => policy

end SkipPolicy

/-- Identifies a running evaluation; cancelling goes by tickets. -/
abbrev Ticket := Nat

/-- A session: its policy and its running evaluations, oldest first. -/
structure Session where
  policy : SkipPolicy
  running : List Ticket
  deriving DecidableEq, Repr

/-- A session in which nothing has happened. -/
def Session.new : Session := ⟨.nothing, []⟩

/-- The known sessions. -/
structure SessionStore where
  table : Table Session
  ordered : table.Ordered

namespace SessionStore

/-- The store that knows no session. -/
def empty : SessionStore := ⟨[], .nil⟩

/-- The session with the given name. -/
def find? (store : SessionStore) (name : String) : Option Session := store.table.find? name

/-- Replaces or adds a session. -/
def put (store : SessionStore) (name : String) (session : Session) : SessionStore :=
  ⟨store.table.insert name session, store.ordered.insert⟩

/-- Changes a session, which is new if it is not known. -/
def update (store : SessionStore) (name : String) (change : Session → Session) : SessionStore :=
  store.put name (change ((store.find? name).getD .new))

/-- Changes a session if it is known. -/
def updateKnown (store : SessionStore) (name : String) (change : Session → Session) :
    SessionStore :=
  match store.find? name with
  | some session => store.put name (change session)
  | none => store

/-- The policy of a session. -/
def policy (store : SessionStore) (name : String) : SkipPolicy :=
  ((store.find? name).map Session.policy).getD .nothing

/-- Whether a session passes a breakpoint. -/
def skips (store : SessionStore) (name : String) (place : Coordinate) : Bool :=
  (store.policy name).skips place

/-- Sets the policy of a session. -/
def setPolicy (store : SessionStore) (name : String) (policy : SkipPolicy) : SessionStore :=
  store.update name fun session => { session with policy }

/-- An evaluation starts: the policy is forgotten. -/
def begin (store : SessionStore) (name : String) (ticket : Ticket) : SessionStore :=
  store.update name fun session => ⟨.nothing, session.running ++ [ticket]⟩

/-- A top-level form starts. -/
def startForm (store : SessionStore) (name : String) : SessionStore :=
  store.updateKnown name fun session => { session with policy := session.policy.atTopLevel }

/-- An evaluation ends. -/
def finish (store : SessionStore) (name : String) (ticket : Ticket) : SessionStore :=
  store.updateKnown name fun session =>
    { session with running := session.running.filter (· != ticket) }

/-- Forgets a session; gives the evaluations that were running in it. -/
def close? (store : SessionStore) (name : String) : Option (List Ticket × SessionStore) :=
  (store.find? name).map fun session =>
    (session.running, ⟨store.table.erase name, store.ordered.erase⟩)

/-- The known sessions, in order. -/
def names (store : SessionStore) : List String := store.table.names

end SessionStore

end Stepper.Debug
