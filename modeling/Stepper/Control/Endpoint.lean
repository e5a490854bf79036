/-
  Endpoints of the control server.

  An endpoint is a loopback address with a port, or the path of a socket
  file.  The addresses are those of IPv4, four decimal numbers, and of IPv6,
  eight groups of hexadecimal digits of which one row of zeros may be left
  out, in square brackets and with an optional scope.
-/
import Stepper.Text.Literal
import Stepper.Host.Directory

namespace Stepper.Control

open Stepper.Host

/-! ## Addresses -/

/-- An address with a port. -/
inductive SocketAddress where
  | v4 (octets : List Nat) (port : Nat)
  | v6 (groups : List Nat) (scope : Nat) (port : Nat)
  deriving DecidableEq, Repr

namespace SocketAddress

/-- The port. -/
def port : SocketAddress → Nat
  | v4 _ port | v6 _ _ port => port

/-- Whether the address is one of the host itself. -/
def isLoopback : SocketAddress → Bool
  | v4 octets _ => octets.head? == some 127
  | v6 groups _ _ => groups == [0, 0, 0, 0, 0, 0, 0, 1]

/-! ### Reading

Every reader gives what it has read and what is left of the text. -/

/-- The value of a digit in a base up to sixteen. -/
def digitValue? (base : Nat) (c : Char) : Option Nat :=
  let v :=
    if '0' ≤ c ∧ c ≤ '9' then c.toNat - '0'.toNat
    else if 'a' ≤ c ∧ c ≤ 'f' then c.toNat - 'a'.toNat + 10
    else if 'A' ≤ c ∧ c ≤ 'F' then c.toNat - 'A'.toNat + 10
    else 16
  if v < base then some v else none

/-- A number below `bound` of at most `width` digits. -/
def number? (base bound : Nat) (width : Option Nat) (leadingZeros : Bool) (cs : List Char) :
    Option (Nat × List Char) :=
  let digits := cs.takeWhile fun c => (digitValue? base c).isSome
  let n := digits.foldl (fun n c => base * n + (digitValue? base c).getD 0) 0
  let tooWide := width.any (· < digits.length)
  let padded := digits.head? == some '0' && 1 < digits.length
  if digits.isEmpty || tooWide || (padded && !leadingZeros) || bound ≤ n then none
  else some (n, cs.drop digits.length)

/-- A given character. -/
def expect (c : Char) : List Char → Option (List Char)
  | c' :: cs => if c' = c then some cs else none
  | [] => none

/-- Four numbers below 256 with points between them. -/
def octets? (cs : List Char) : Option (List Nat × List Char) := do
  let octet := number? 10 256 (some 3) false
  let (a, cs) ← octet cs
  let (b, cs) ← octet (← expect '.' cs)
  let (c, cs) ← octet (← expect '.' cs)
  let (d, cs) ← octet (← expect '.' cs)
  return ([a, b, c, d], cs)

/-- The two groups of an IPv4 address inside an IPv6 address. -/
def groupsOfOctets : List Nat → List Nat
  | [a, b, c, d] => [a * 256 + b, c * 256 + d]
  | _ => []

/-- At most `limit` groups with colons between them, and whether the last two
    are written as an IPv4 address; a colon comes first unless `first`. -/
def groups : (limit : Nat) → (first : Bool) → List Char → List Nat × Bool × List Char
  | 0, _, cs => ([], false, cs)
  | limit + 1, first, cs =>
    let start := if first then some cs else expect ':' cs
    match (if 1 ≤ limit then start.bind octets? else none) with
    | some (octets, cs) => (groupsOfOctets octets, true, cs)
    | none =>
      match start.bind (number? 16 65536 (some 4) true) with
      | none => ([], false, cs)
      | some (g, cs) =>
        let (gs, dotted, cs) := groups limit false cs
        (g :: gs, dotted, cs)

/-- The eight groups of an IPv6 address; two colons stand for zeros. -/
def sixteen? (cs : List Char) : Option (List Nat × List Char) :=
  let (head, dotted, rest) := groups 8 true cs
  if head.length = 8 then some (head, rest)
  else if dotted then none
  else do
    let rest ← expect ':' (← expect ':' rest)
    let (tail, _, rest) := groups (7 - head.length) true rest
    return (head ++ List.replicate (8 - head.length - tail.length) 0 ++ tail, rest)

/-- The scope of an IPv6 address, zero if there is none. -/
def scope (cs : List Char) : Nat × List Char :=
  (((expect '%' cs).bind (number? 10 UInt32.size none true)).getD (0, cs))

/-- A colon and a port. -/
def port? (cs : List Char) : Option (Nat × List Char) := do
  number? 10 65536 none true (← expect ':' cs)

/-- An IPv4 address with a port. -/
def v4? (cs : List Char) : Option (SocketAddress × List Char) := do
  let (octets, cs) ← octets? cs
  let (port, cs) ← port? cs
  return (.v4 octets port, cs)

/-- An IPv6 address with a port. -/
def v6? (cs : List Char) : Option (SocketAddress × List Char) := do
  let (groups, cs) ← sixteen? (← expect '[' cs)
  let (scope, cs) := scope cs
  let (port, cs) ← port? (← expect ']' cs)
  return (.v6 groups scope port, cs)

/-- The address that a text denotes. -/
def parse? (cs : List Char) : Option SocketAddress :=
  match (v4? cs).or (v6? cs) with
  | some (address, []) => some address
  | _ => none

/-! ### Writing -/

/-- The length of the row of zeros at the start. -/
def zerosAt (groups : List Nat) : Nat := (groups.takeWhile (· == 0)).length

/-- The place and length of the longest row of zeros, the first of several. -/
def longestZeros : (place : Nat) → List Nat → Nat × Nat
  | place, [] => (place, 0)
  | place, g :: gs =>
    let later := longestZeros (place + 1) gs
    let here := zerosAt (g :: gs)
    if later.2 ≤ here then (place, here) else later

/-- Groups in hexadecimal with colons between them. -/
def showGroups (groups : List Nat) : String :=
  ":".intercalate (groups.map fun g => String.ofList (Nat.toDigits 16 g))

/-- An IPv6 address; the longest row of at least two zeros is left out. -/
def showSixteen (groups : List Nat) : String :=
  let (place, length) := longestZeros 0 groups
  if 2 ≤ length then
    showGroups (groups.take place) ++ "::" ++ showGroups (groups.drop (place + length))
  else showGroups groups

/-- The text of an address with its port. -/
def print : SocketAddress → String
  | v4 octets port => ".".intercalate (octets.map toString) ++ ":" ++ toString port
  | v6 groups scope port =>
    "[" ++ showSixteen groups ++ (if scope = 0 then "" else "%" ++ toString scope) ++ "]:"
      ++ toString port

end SocketAddress

/-! ## Endpoints -/

/-- Where the server listens. -/
inductive Endpoint where
  | tcp (address : SocketAddress)
  | unix (path : String)
  deriving DecidableEq, Repr

/-- Why the server cannot listen. -/
inductive ListenFault where
  | badAddress
  | notLoopback
  | unsupported (text : String)
  /-- The address cannot be taken. -/
  | bindAddress (address : SocketAddress) (fault : HostFault)
  /-- The socket file cannot be made. -/
  | bindPath (path : String) (fault : HostFault)
  /-- The socket file cannot be found again. -/
  | metadata (fault : HostFault)
  deriving DecidableEq, Repr

/-- The wording of a fault. -/
def ListenFault.message (fault : ListenFault) : String :=
  "control error: " ++ match fault with
    | badAddress => "invalid tcp endpoint: invalid socket address syntax"
    | notLoopback => "tcp endpoint must be loopback (use unix:// for local sockets)"
    | unsupported text => "unsupported endpoint '" ++ text ++ "'"
    | bindAddress address fault => "bind " ++ address.print ++ ": " ++ fault.message
    | bindPath path fault => "bind " ++ Text.literal path ++ ": " ++ fault.message
    | metadata fault => "socket metadata: " ++ fault.message

/-- The text without the given start. -/
def afterStart? (start : String) (text : List Char) : Option (List Char) :=
  if start.toList.isPrefixOf text then some (text.drop start.toList.length) else none

/-- Takes an endpoint: a free address, or the path of a socket file.  A host
    without a network has no IPv6 address of its own.  The empty path stands
    for a socket without a file, which is then not found. -/
def Endpoint.bind (host : Surroundings) : Endpoint → Except ListenFault Surroundings
  | .tcp (.v4 ..) => .ok host
  | .tcp address =>
    if host.network then .ok host else .error (.bindAddress address .addressUnknown)
  | .unix path =>
    if path.isEmpty then .error (.metadata .missing)
    else
      match host.directory.makeSocket path with
      | .ok directory => .ok { host with directory }
      | .error fault => .error (.bindPath path fault)

/-- The permissions of the file that an endpoint makes: its owner may read and
    write. -/
def Endpoint.mode? : Endpoint → Option Nat
  | .tcp _ => none
  | .unix _ => some 0o600

/-- The endpoint that a text denotes. -/
def Endpoint.parse (text : String) : Except ListenFault Endpoint :=
  match afterStart? "tcp://" text.toList, afterStart? "unix://" text.toList with
  | some rest, _ =>
    match SocketAddress.parse? rest with
    | none => .error .badAddress
    | some address => if address.isLoopback then .ok (.tcp address) else .error .notLoopback
  | none, some rest => .ok (.unix (String.ofList rest))
  | none, none => .error (.unsupported text)

end Stepper.Control
