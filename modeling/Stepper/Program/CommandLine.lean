/-
  The arguments of the program.

  Arguments are looked at in order, and the first thing that is wrong, or that
  asks for help or the version, decides.  An option takes its value after an
  equals sign or from the next argument, which must not look like an option.
-/
namespace Stepper.Program

/-! ## Options -/

/-- The options that take a value. -/
inductive OptionName where
  | config
  | listen
  | logLevel
  deriving DecidableEq, Repr

namespace OptionName

/-- All of them. -/
def all : List OptionName := [config, listen, logLevel]

/-- The option without its dashes. -/
def text : OptionName → String
  | config => "config"
  | listen => "listen"
  | logLevel => "log-level"

/-- The option with the given text. -/
def named? (text : String) : Option OptionName := all.find? (·.text == text)

/-- Whether the option takes a value; paths are not empty. -/
def admits : OptionName → String → Bool
  | config, value => !value.isEmpty
  | _, _ => true

end OptionName

/-- The options that have been given, each at most once. -/
structure Options where
  given : List (OptionName × String)
  deriving DecidableEq, Repr

/-- The value of an option. -/
def Options.get? (options : Options) (name : OptionName) : Option String :=
  options.given.lookup name

/-- What can be wrong with arguments. -/
inductive UsageFault where
  | unexpected (argument : String)
  | repeated (name : OptionName)
  | noValue (name : OptionName)
  | badValue (name : OptionName)
  deriving DecidableEq, Repr

/-- The wording of a fault. -/
def UsageFault.message : UsageFault → String
  | unexpected argument => "unexpected argument '" ++ argument ++ "'"
  | repeated name => "option '--" ++ name.text ++ "' was given twice"
  | noValue name => "option '--" ++ name.text ++ "' needs a value"
  | badValue name => "option '--" ++ name.text ++ "' does not take this value"

/-- What arguments ask for. -/
inductive Invocation where
  | help
  | version
  | run (options : Options)
  deriving DecidableEq, Repr

/-! ## Reading arguments -/

/-- What a single argument is. -/
inductive Argument where
  | help
  | version
  /-- An option, and its value if there is an equals sign. -/
  | option (name : OptionName) (value : Option String)
  /-- Anything else that starts like an option. -/
  | stray
  | plain

/-- A long option: what comes before an equals sign, and what after it. -/
def splitValue (cs : List Char) : String × Option String :=
  match cs.dropWhile (· ≠ '=') with
  | _ :: value => (String.ofList (cs.takeWhile (· ≠ '=')), some (String.ofList value))
  | [] => (String.ofList cs, none)

namespace Argument

/-- Reads a long option. -/
def ofLong (cs : List Char) : Argument :=
  match splitValue cs with
  | ("help", none) => help
  | ("version", none) => version
  | (text, value) =>
    match OptionName.named? text with
    | some name => option name value
    | none => stray

/-- Reads an argument.  Of several letters after one dash the first decides. -/
def ofText (text : String) : Argument :=
  match text.toList with
  | '-' :: '-' :: cs => ofLong cs
  | ['-'] => plain
  | '-' :: 'h' :: _ => help
  | '-' :: 'V' :: _ => version
  | '-' :: _ => stray
  | _ => plain

end Argument

/-- Adds an option with its value. -/
def Options.add (options : Options) (name : OptionName) (value : String) :
    Except UsageFault Options :=
  if !name.admits value then .error (.badValue name)
  else if (options.get? name).isSome then .error (.repeated name)
  else .ok ⟨options.given ++ [(name, value)]⟩

/-- Reads arguments after some options. -/
def readArguments (options : Options) : List String → Except UsageFault Invocation
  | [] => .ok (.run options)
  | text :: texts =>
    match Argument.ofText text, texts with
    | .help, _ => .ok .help
    | .version, _ => .ok .version
    | .option name (some value), texts =>
      match options.add name value with
      | .ok options => readArguments options texts
      | .error fault => .error fault
    | .option name none, value :: texts =>
      match Argument.ofText value with
      | .plain =>
        match options.add name value with
        | .ok options => readArguments options texts
        | .error fault => .error fault
      | _ => .error (.noValue name)
    | .option name none, [] => .error (.noValue name)
    | .stray, texts =>
      if text = "--" then
        match texts with
        | [] => .ok (.run options)
        | extra :: _ => .error (.unexpected extra)
      else .error (.unexpected text)
    | .plain, _ => .error (.unexpected text)

/-- What the arguments of the program ask for. -/
def Invocation.ofArguments (texts : List String) : Except UsageFault Invocation :=
  readArguments ⟨[]⟩ texts

end Stepper.Program
