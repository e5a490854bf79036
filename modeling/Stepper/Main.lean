/-
  The program.

  It serves one client, which writes to the standard input and receives on the
  standard output.  The variable `TARRY_LOG` may hold a log filter.
-/
import Stepper.Program.Start

namespace Stepper.Program

open Stepper.Control Stepper.Host

/-- The text of a file. -/
def fileText (path : String) : IO (Except HostFault String) := do
  try
    return .ok (← IO.FS.readFile path)
  catch
    | .noFileOrDirectory .. => return .error .missing
    | e => return .error (.other (toString e))

/-- The text of the configuration file that the arguments ask for. -/
def configText (arguments : List String) : IO (Except HostFault String) :=
  match Invocation.ofArguments arguments with
  | .ok (.run options) =>
    match options.get? .config with
    | some path => fileText path
    | none => return .error .missing
  | _ => return .error .missing

/-- Hands lines to the client. -/
def hand (received : List Received) : IO Unit := do
  let out ← IO.getStdout
  for r in received do
    out.putStrLn r.line
  out.flush

/-- Serves a client until it closes its end. -/
partial def serve (listener : Listener) (number : Nat) : IO Unit := do
  let text ← (← IO.getStdin).getLine
  if text.isEmpty then
    hand (listener.close number).1
  else
    let (received, listener) := listener.write number (encodeText text)
    hand received
    serve listener number

/-- Serves the only client. -/
def serveOnly (listener : Listener) : IO Unit :=
  match listener.connect with
  | .ok (number, listener) => serve listener number
  | .error fault => IO.eprintln fault.message

end Stepper.Program

open Stepper.Program in
/-- The entry of the program. -/
def main (arguments : List String) : IO UInt32 := do
  let text ← configText arguments
  let ending := run (fun _ => text) ⟨.empty, true⟩ (← IO.getEnv "TARRY_LOG") arguments
  match ending, ending.exit? with
  | .serving listener, _ =>
    serveOnly listener
    return 0
  | _, some exit =>
    IO.print exit.out
    IO.eprint exit.err
    return UInt32.ofNat exit.status
  | _, none => return 0
