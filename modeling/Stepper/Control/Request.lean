/-
  Requests and responses.

  A request is one line of JSON: an id, the name of an operation and its
  parameters.  A response bears the id of its request, a status, and fields
  that depend on the operation.
-/
import Stepper.Json.Skip
import Stepper.Control.Decode

namespace Stepper.Control

open Stepper.Data

/-! ## Requests -/

/-- A request whose operation has not been looked at. -/
structure Request where
  id : Nat
  type : String
  params : Json

namespace Request

/-- The fields of a request that have been met so far. -/
structure Draft where
  id : Option Nat
  type : Option String
  params : Option Json

/-- Takes in a field. -/
def Draft.add (draft : Draft) (name : String) (json : Json) : Decoded Draft :=
  match name with
  | "id" =>
    if draft.id.isSome then .error (.duplicate name)
    else (asNatural json).map fun id => { draft with id := some id }
  | "type" =>
    if draft.type.isSome then .error (.duplicate name)
    else (asString json).map fun type => { draft with type := some type }
  | "params" =>
    if draft.params.isSome then .error (.duplicate name)
    else .ok { draft with params := some json }
  | _ => .ok draft

/-- Parameters that are absent or null count as an empty object. -/
def paramsOf : Option Json → Json
  | none | some .null => .object []
  | some json => json

/-- A request from its JSON value. -/
def ofJson : Json → Decoded Request
  | .object fields => do
    let draft ← fields.foldlM (fun draft (name, json) => Draft.add draft name json) ⟨none, none, none⟩
    match draft.id, draft.type with
    | none, _ => .error (.missing "id")
    | _, none => .error (.missing "type")
    | some id, some type => .ok ⟨id, type, paramsOf draft.params⟩
  | .array items =>
    let short (n : Nat) : Decoded Request :=
      .error (.wrongLength n (expectedFields "ControlRequest" 3))
    match items with
    | [] => short 0
    | [id] => do
      let _ ← asNatural id
      short 1
    | [id, type] => do
      let _ ← asNatural id
      let _ ← asString type
      short 2
    | id :: type :: params :: extra => do
      let id ← asNatural id
      let type ← asString type
      if extra.isEmpty then .ok ⟨id, type, paramsOf (some params)⟩ else .error .trailing
  | json => .error (.wrongType json "struct ControlRequest")

/-- The names of the fields of a request. -/
def fieldNames : List String := ["id", "type", "params"]

/-- A request from its line.  Other fields than those of a request are only
    skipped, so they may hold what cannot be read as a value.  A line with such
    a field has no other fault than that it is not JSON. -/
def ofLine (line : String) : Decoded Request :=
  match Json.parse? line with
  | some json => ofJson json
  | none =>
    match (Json.fieldsNamed? fieldNames line).map fun fields => ofJson (.object fields) with
    | some (.ok request) => .ok request
    | _ => .error .notJson

end Request

/-! ## Operations -/

/-- What a request asks for. -/
inductive Operation where
  | attach (force : Bool)
  | reply (key input : String)
  | evaluate (session code : String)
  | close (session : String)
  | sessions
  deriving DecidableEq, Repr

/-- The operation of a request, `none` if there is no such operation. -/
def Operation.ofRequest? (r : Request) : Option (Decoded Operation) :=
  match r.type with
  | "attach-debugger" => some ((asFlag "AttachParams" "force" r.params).map attach)
  | "submit-debug-reply" =>
    some ((asTwo "SubmitReplyParams" "key" "input" r.params).map fun (key, input) =>
      reply key input)
  | "eval" =>
    some ((asTwo "EvalParams" "session" "code" r.params).map fun (session, code) =>
      evaluate session code)
  | "close-session" => some ((asOne "SessionParams" "session" r.params).map close)
  | "sessions" => some (.ok sessions)
  | _ => none

/-! ## Responses -/

/-- The answer to a request. -/
structure Response where
  id : Nat
  status : List String
  error : Option String
  body : Json.Object

namespace Response

/-- The request has been carried out. -/
def done (id : Nat) (body : Json.Object) : Response := ⟨id, ["done"], none, body⟩

/-- The request has been rejected. -/
def rejected (id : Nat) (reason : String) : Response := ⟨id, ["error", "done"], some reason, []⟩

/-- The fields in the order in which a response is written. -/
def fields (r : Response) : List (String × Json) :=
  [("id", .nat r.id), ("status", .strings r.status)]
    ++ r.error.toList.map (fun reason => ("error", .string reason)) ++ r.body

/-- The line that answers at once. -/
def line (r : Response) : String := (Json.object r.fields).print

/-- The message that answers later. -/
def message (r : Response) : Json.Object := Table.insertAll r.fields []

end Response

end Stepper.Control
