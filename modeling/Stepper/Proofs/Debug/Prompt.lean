/-
  The fields of prompts.

  A message holds its status, the id of the request with which the client
  attached, and what is put into it (`find?_message`).  Of a prompt that is
  what shows the breakpoint and what says how to reply (`find?_promptBody`);
  the names in sight are shown with the values they have (`find?_locals`).
-/
import Stepper.Debug.Breakpoint
import Stepper.Proofs.Data.Table

namespace Stepper.Debug

open Stepper.Data Stepper.Eval

theorem find?_message (a : Attachment) (status : List String) (body : Json.Object) (name : String) :
    Table.find? name (a.message status body) = Table.find? name
      (("status", .strings status) :: ("id", .nat a.request) :: body) := by
  rw [Attachment.message, Table.find?_insert, Table.find?_insert, Table.find?, Table.find?]

/-- What is shown of the names in sight is found under them. -/
theorem find?_locals (name : String) (bindings : List Binding) :
    Table.find? name (Table.insertAll
        (bindings.map fun (name, value) => (name, Json.string value.print)) []) =
      (lookup? name bindings).map fun v => .string v.print := by
  have shown (bindings : List Binding) :
      Table.find? name (bindings.map fun (name, value) => (name, Json.string value.print)) =
        ((bindings.find? (·.1 == name)).map (·.2)).map fun v => .string v.print := by
    induction bindings with
    | nil => rfl
    | cons b bindings ih =>
      obtain ⟨other, value⟩ := b
      by_cases same : name = other
      · simp [Table.find?, same]
      · have different : (other == name) = false := beq_false_of_ne fun h => same h.symm
        simp [Table.find?, same, different, ih]
  have nothing : Table.find? name ([] : Table Json) = none := rfl
  rw [Table.find?_insertAll, nothing, Option.or_none, ← List.map_reverse, shown]
  rfl

/-- What a prompt shows, field by field. -/
theorem find?_promptBody (hit : Hit) (dialog : Dialog) (ask : Ask) (key : Key) (name : String) :
    Table.find? name (hit.promptBody dialog ask key) = Table.find? name
      ([("value", .string hit.value.print), ("coordinate", hit.placeJson),
        ("locals", hit.localsJson), ("session", .string hit.session)]
        ++ dialog.shown.toList.map (fun text => ("eval-result", .string text))
        ++ [("key", .string key.text), ("prompt", .string ask.prompt),
          ("input-kind", ask.kind.toJson)]) := by
  have ordered : Table.Ordered (hit.display dialog.shown) := Table.Ordered.nil.insertAll _
  have distinct : (Table.names ([("value", Json.string hit.value.print),
      ("coordinate", hit.placeJson), ("locals", hit.localsJson), ("session", .string hit.session)]
      ++ dialog.shown.toList.map fun text => ("eval-result", .string text))).Nodup := by
    cases dialog.shown <;> simp [Table.names]
  have own : (Table.names [("key", Json.string key.text), ("prompt", .string ask.prompt),
      ("input-kind", ask.kind.toJson)]).Nodup := by
    simp [Table.names]
  have nothing : Table.find? name ([] : Table Json) = none := rfl
  rw [Hit.promptBody, Channel.promptBody, Table.find?_insertAll_of_nodup ordered.nodup,
    Table.find?_insertAll_of_nodup own, nothing, Option.or_none, Hit.display,
    Table.find?_insertAll_of_nodup distinct, nothing, Option.or_none, ← Table.find?_append]

end Stepper.Debug
