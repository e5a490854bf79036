/-
  Starting the program.

  The configuration is read first, then the log filter is looked at, then the
  endpoint, and last the endpoint is taken; the first of these that fails is
  reported.  Options on the command line win over the configuration, and a
  valid filter from outside wins over both.
-/
import Stepper.Config.Basic
import Stepper.Config.LogFilter
import Stepper.Control.Listener
import Stepper.Program.CommandLine

namespace Stepper.Program

open Stepper.Control Stepper.Host Stepper.Debug

/-! ## Preparation -/

/-- Why the program does not start. -/
inductive StartFault where
  | config (path : String) (fault : Config.Fault)
  | logLevel
  | listen (fault : ListenFault)
  deriving DecidableEq, Repr

/-- A text in which every line stands four places to the right. -/
def indented (text : String) : String :=
  "\n".intercalate ((text.splitOn "\n").map ("    " ++ ·))

/-- What is printed about a fault.  The details of faulty files and filters
    are left out, with the end of the line. -/
def StartFault.report : StartFault → String
  | config path fault =>
    "Error: failed to load " ++ path ++ "\n\nCaused by:\n" ++ indented (fault.messageIn path)
      ++ (if fault = .toml .malformed then "" else "\n")
  | logLevel => "Error: invalid log level"
  | listen fault => "Error: " ++ fault.message ++ "\n"

/-- The configuration that options ask for; `read` gives the text of files. -/
def loadConfig (read : String → Except HostFault String) (options : Options) :
    Except StartFault Config := do
  let config ← match options.get? .config with
    | none => .ok Config.default
    | some path => (Config.ofFile (read path)).mapError (.config path)
  return { config with
    listen := (options.get? .listen).getD config.listen
    logLevel := (options.get? .logLevel).getD config.logLevel }

/-- Where to listen, and the settings of the debugger. -/
def prepare (read : String → Except HostFault String) (filter : Option String)
    (options : Options) : Except StartFault (Endpoint × Settings) := do
  let config ← loadConfig read options
  if !filter.any Config.LogFilter.isValid && !Config.LogFilter.isValid config.logLevel then
    .error .logLevel
  let endpoint ← (Endpoint.parse config.listen).mapError .listen
  return (endpoint, config.debug)

/-- Starts the program; `read` gives the text of files. -/
def start (read : String → Except HostFault String) (host : Surroundings)
    (filter : Option String) (options : Options) : Except StartFault Listener := do
  let (endpoint, settings) ← prepare read filter options
  (Listener.listen host endpoint settings).mapError .listen

/-! ## Running -/

/-- The name of the program with its version. -/
def versionText : String := "tarry 0.3.0\n"

/-- How to use the program, line by line. -/
def helpLines : List String :=
  ["Evaluation server with breakpoint debugging",
   "",
   "Usage: tarry [OPTIONS]",
   "",
   "Options:",
   "      --config <CONFIG>        Configuration file (tarry.toml)",
   "      --listen <LISTEN>        Control endpoint (tcp://127.0.0.1:PORT or unix:///path)",
   "      --log-level <LOG_LEVEL>  Log filter directive, e.g. \x60info\x60 or \x60tarry_runtime=debug\x60",
   "  -h, --help                   Print help",
   "  -V, --version                Print version",
   "",
   "Examples:",
   "  tarry",
   "  tarry --listen unix:///tmp/tarry.sock",
   "  tarry --config tarry.toml --log-level debug"]

/-- How to use the program. -/
def helpText : String := "\n".intercalate helpLines ++ "\n"

/-- What comes of running the program. -/
inductive Ending where
  | printed (text : String)
  | misused (fault : UsageFault)
  | failed (fault : StartFault)
  /-- The server runs. -/
  | serving (listener : Listener)

/-- What a program that has ended leaves behind. -/
structure Exit where
  status : Nat
  out : String
  err : String
  deriving DecidableEq, Repr

/-- How the program ends, unless the server runs. -/
def Ending.exit? : Ending → Option Exit
  | printed text => some ⟨0, text, ""⟩
  | misused fault => some ⟨2, "", "error: " ++ fault.message ++ "\n"⟩
  | failed fault => some ⟨1, "", fault.report⟩
  | serving _ => none

/-- Runs the program with some arguments; `read` gives the text of files. -/
def run (read : String → Except HostFault String) (host : Surroundings) (filter : Option String)
    (arguments : List String) : Ending :=
  match Invocation.ofArguments arguments with
  | .error fault => .misused fault
  | .ok .help => .printed helpText
  | .ok .version => .printed versionText
  | .ok (.run options) =>
    match start read host filter options with
    | .error fault => .failed fault
    | .ok listener => .serving listener

end Stepper.Program
