/-
  The configuration of the server.

  A configuration file has the tables `server`, `debug` and `log`, all
  optional, and nothing else.  A table may also be given as an array of its
  fields in order.
-/
import Stepper.Text.Blank
import Stepper.Config.Toml
import Stepper.Control.Endpoint
import Stepper.Debug.Debugger

namespace Stepper

open Stepper.Debug Stepper.Control Stepper.Host

/-! ## Configurations -/

/-- What the server is started with. -/
structure Config where
  listen : String
  logLevel : String
  debug : Settings
  deriving DecidableEq, Repr

namespace Config

/-- Without a file. -/
def default : Config := ⟨"tcp://127.0.0.1:7888", "info", .default⟩

/-- What can be wrong with a configuration. -/
inductive Fault where
  /-- The file cannot be read. -/
  | file (fault : HostFault)
  /-- No TOML, or not the tables and fields of a configuration. -/
  | toml (fault : Toml.Fault)
  | listen (fault : ListenFault)
  | detached (text : String)
  deriving DecidableEq, Repr

/-- What the fault is, for the message. -/
def Fault.reason : Fault → String
  | file fault => fault.message
  | toml .malformed => "TOML parse error"
  | toml .longKey => "recursion limit\n"
  | listen fault => "server.listen: " ++ fault.message
  | detached text => "invalid debug.detached '" ++ text ++ "'"

/-- The wording of a fault in a text. -/
def Fault.message (fault : Fault) : String := "invalid config: " ++ fault.reason

/-- The wording of a fault in a file. -/
def Fault.messageIn (path : String) (fault : Fault) : String :=
  "invalid config: " ++ path ++ ": " ++ fault.reason

/-- The policy that a text names; case and blanks around it do not count. -/
def parseDetached (text : String) : Except Fault DetachedPolicy :=
  match String.ofList ((Text.trim text.toList).map Char.toLower) with
  | "error" => .ok .fail
  | "block" => .ok .block
  | _ => .error (.detached text)

/-! ## Files -/

/-- The fields of a table, each absent or given; `none` for anything else. -/
def fieldsOf (names : List String) : Toml → Option (List (Option Toml))
  | .table _ entries =>
    if entries.all fun (key, _) => names.contains key then
      some (names.map fun name => Entries.find? name entries)
    else none
  | .array items =>
    if items.length < names.length then none else some ((items.take names.length).map some)
  | _ => none

/-- A text, if a value is given. -/
def optionalText : Option Toml → Option (Option String)
  | none => some none
  | some (.text s) => some (some s)
  | some _ => none

/-- A natural number of 64 bits, if a value is given. -/
def optionalNatural : Option Toml → Option (Option Nat)
  | none => some none
  | some (.integer n) => if 0 ≤ n ∧ n < UInt64.size then some (some n.toNat) else none
  | some _ => none

/-- The fields of a configuration file. -/
structure Draft where
  listen : Option String
  detached : Option String
  replyTimeout : Option Nat
  logLevel : Option String

/-- A section with one text. -/
def textSection (name : String) : Option Toml → Option (Option String)
  | none => some none
  | some table => do
    match ← fieldsOf [name] table with
    | [field] => optionalText field
    | _ => none

/-- The section about the debugger. -/
def debugSection : Option Toml → Option (Option String × Option Nat)
  | none => some (none, none)
  | some table => do
    match ← fieldsOf ["detached", "reply_timeout_ms"] table with
    | [detached, timeout] => return (← optionalText detached, ← optionalNatural timeout)
    | _ => none

/-- The fields of a document. -/
def Draft.ofEntries? (entries : Entries) : Option Draft := do
  match ← fieldsOf ["server", "debug", "log"] (.table .header entries) with
  | [server, debug, log] =>
    let listen ← textSection "listen" server
    let (detached, replyTimeout) ← debugSection debug
    let logLevel ← textSection "level" log
    return { listen, detached, replyTimeout, logLevel }
  | _ => none

/-- The configuration with these fields.  A timeout of zero is none. -/
def Draft.toConfig (draft : Draft) : Except Fault Config := do
  let listen := draft.listen.getD default.listen
  match Endpoint.parse listen with
  | .error fault => .error (.listen fault)
  | .ok _ =>
    let detached ← parseDetached (draft.detached.getD "error")
    return {
      listen
      logLevel := draft.logLevel.getD default.logLevel
      debug := ⟨detached, draft.replyTimeout.filter (0 < ·)⟩ }

/-- The configuration in a file with the given content. -/
def ofToml (source : String) : Except Fault Config :=
  match Toml.parse source with
  | .error fault => .error (.toml fault)
  | .ok entries =>
    match Draft.ofEntries? entries with
    | some draft => draft.toConfig
    | none => .error (.toml .malformed)

/-- The configuration in a file, given the text of the file or why there is
    none. -/
def ofFile : Except HostFault String → Except Fault Config
  | .ok source => ofToml source
  | .error fault => .error (.file fault)

end Config

end Stepper
