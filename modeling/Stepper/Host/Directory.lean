/-
  The directory in which the program runs.

  A `Directory` holds the files that are known; of the directories around it
  nothing is known but that they exist.  `Directory.follow` takes a path step
  by step, `Directory.read` gives the text of a file, and
  `Directory.makeSocket` makes a socket file the way the host does.  A socket
  file takes the place of an ordinary file, but of nothing else.
-/
import Stepper.Data.Table

namespace Stepper.Host

open Stepper.Data

/-! ## What the host refuses -/

/-- Reasons why the host does not do what it is asked. -/
inductive HostFault where
  | missing
  | notDirectory
  | isDirectory
  | notReadable
  | nameTooLong
  | addressInUse
  | addressUnknown
  | networkDown
  | socketPathTooLong
  | zeroInPath
  /-- Something else, in the words of the host. -/
  | other (reason : String)
  deriving DecidableEq, Repr

/-- A numbered error of the host. -/
def numbered (text : String) (number : Nat) : String :=
  text ++ " (os error " ++ toString number ++ ")"

/-- The wording of a fault. -/
def HostFault.message : HostFault → String
  | missing => numbered "No such file or directory" 2
  | notDirectory => numbered "Not a directory" 20
  | isDirectory => numbered "Is a directory" 21
  | notReadable => numbered "No such device or address" 6
  | nameTooLong => numbered "File name too long" 36
  | addressInUse => numbered "Address already in use" 98
  | addressUnknown => numbered "Cannot assign requested address" 99
  | networkDown => numbered "Network is unreachable" 101
  | socketPathTooLong => "path must be shorter than SUN_LEN"
  | zeroInPath => "paths must not contain interior null bytes"
  | other reason => reason

/-! ## Directories -/

/-- A file. -/
inductive File where
  | text (content : String)
  | socket
  deriving DecidableEq, Repr

/-- The files of a directory, by name. -/
structure Directory where
  files : Table File

/-- Where a path leads. -/
inductive Place where
  /-- To the directory itself. -/
  | here
  /-- To a directory around it. -/
  | around
  | file (name : String) (file : File)

namespace Directory

/-- The directory without files. -/
def empty : Directory := ⟨[]⟩

/-- The directory with one text file. -/
def single (name content : String) : Directory := ⟨[(name, .text content)]⟩

/-- The longest name of a file, in bytes. -/
def maxNameSize : Nat := 255

/-- Follows the steps of a path. -/
def follow (d : Directory) : Place → List String → Except HostFault Place
  | place, [] => .ok place
  | .file .., _ :: _ => .error .notDirectory
  | place, step :: steps =>
    if step = "" ∨ step = "." then d.follow place steps
    else if step = ".." then d.follow .around steps
    else if maxNameSize < step.utf8ByteSize then .error .nameTooLong
    else
      match place, d.files.find? step with
      | .here, some file => d.follow (.file step file) steps
      | _, _ => .error .missing

/-- Where the first step of a path is made. -/
def startOf (path : String) : Place := if path.startsWith "/" then .around else .here

/-- The steps of a path. -/
def stepsOf (path : String) : List String := path.splitOn "/"

/-- Where a path leads; the empty path leads nowhere. -/
def locate (d : Directory) (path : String) : Except HostFault Place :=
  if path.isEmpty then .error .missing else d.follow (startOf path) (stepsOf path)

/-- The text of the file at a path. -/
def read (d : Directory) (path : String) : Except HostFault String :=
  match d.locate path with
  | .ok (.file _ (.text content)) => .ok content
  | .ok (.file _ .socket) => .error .notReadable
  | .ok _ => .error .isDirectory
  | .error fault => .error fault

/-- Removes the file at a path, if there is one. -/
def remove (d : Directory) (path : String) : Directory :=
  match d.locate path with
  | .ok (.file name _) => ⟨d.files.erase name⟩
  | _ => d

/-! ## Socket files -/

/-- The path of a socket file is shorter than this, in bytes. -/
def socketPathLimit : Nat := 108

/-- The steps to the directory of a new file, its name, and whether the path
    goes on with a slash after it. -/
def splitLast (path : String) : List String × String × Bool :=
  let steps := (stepsOf path).reverse
  match steps.dropWhile (· = "") with
  | [] => ([], "", false)
  | name :: before => (before.reverse, name, steps.head? == some "")

/-- Makes a socket file at a place that is free. -/
def addSocket (d : Directory) (path : String) : Except HostFault Directory :=
  let (before, name, slash) := splitLast path
  match d.follow (startOf path) before with
  | .error fault => .error fault
  | .ok (.file ..) => .error .notDirectory
  | .ok place =>
    if name = "" ∨ name = "." ∨ name = ".." then .error .addressInUse
    else
      match place, d.files.find? name with
      | .here, some _ => .error .addressInUse
      | .here, none => if slash then .error .missing else .ok ⟨d.files.insert name .socket⟩
      | _, _ => if slash then .error .missing else .ok d

/-- Makes a socket file at a path, in place of the file that may be there. -/
def makeSocket (d : Directory) (path : String) : Except HostFault Directory :=
  if path.toList.contains '\x00' then .error .zeroInPath
  else if socketPathLimit ≤ path.utf8ByteSize then .error .socketPathTooLong
  else (d.remove path).addSocket path

end Directory

/-! ## Surroundings -/

/-- What the program finds when it is started. -/
structure Surroundings where
  directory : Directory
  /-- Whether the host has a network, be it only with itself. -/
  network : Bool

end Stepper.Host
