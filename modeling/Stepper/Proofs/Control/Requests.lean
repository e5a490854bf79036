/-
  What a line asks for.

  A line `Reads` as a request, and a request `Asks` for an operation; a line
  `Means` the two together.  Fields may stand in any order, next to others, and
  parameters may be given as an array.  The readers take just that
  (`Request.ofLine_eq_ok_iff`, `Operation.ofRequest?_eq_ok_iff`).
-/
import Mathlib.Data.List.Forall2
import Mathlib.Data.List.Induction
import Stepper.Control.Request
import Stepper.Proofs.Data.Except
import Stepper.Proofs.Data.Table

namespace Stepper.Control

open Stepper.Data

/-! ## Fields -/

/-- The values given under a name, in order. -/
def given (name : String) (fields : List (String × Json)) : List Json :=
  fields.filterMap fun (other, json) => if name = other then some json else none

variable {name : String} {json : Json} {fields : List (String × Json)}

theorem mem_given_iff : json ∈ given name fields ↔ (name, json) ∈ fields := by
  rw [given, List.mem_filterMap]
  constructor
  · rintro ⟨⟨other, _⟩, mem, same⟩
    obtain ⟨rfl, ⟨⟩⟩ := Option.ite_none_right_eq_some.1 same
    exact mem
  · intro mem
    exact ⟨_, mem, if_pos rfl⟩

theorem given_append (name : String) (fields more : List (String × Json)) :
    given name (fields ++ more) = given name fields ++ given name more :=
  List.filterMap_append

theorem given_own (name : String) (json : Json) : given name [(name, json)] = [json] :=
  List.filterMap_cons_some (if_pos rfl)

theorem given_other {other : String} (different : name ≠ other) (json : Json) :
    given name [(other, json)] = [] :=
  List.filterMap_cons_none (if_neg different)

theorem given_concat_own (name : String) (fields : List (String × Json)) (json : Json) :
    given name (fields ++ [(name, json)]) = given name fields ++ [json] := by
  rw [given_append, given_own]

theorem given_concat_other {other : String} (different : name ≠ other) (json : Json) :
    given name (fields ++ [(other, json)]) = given name fields := by
  rw [given_append, given_other different, List.append_nil]

theorem find?_eq_head?_given (name : String) (fields : List (String × Json)) :
    Table.find? name fields = (given name fields).head? := by
  induction fields with
  | nil => rfl
  | cons field fields ih =>
    obtain ⟨other, json⟩ := field
    rw [← List.singleton_append, given_append, List.singleton_append, Table.find?]
    split
    · rename_i same
      rw [same, given_own]
      rfl
    · rename_i different
      rw [given_other different, List.nil_append, ih]

/-- Of the values given under a name the last one counts. -/
theorem find?_insertAll_nil (name : String) (fields : List (String × Json)) :
    Table.find? name (Table.insertAll fields []) = (given name fields).getLast? := by
  rw [Table.find?_insertAll, Table.find?, Option.or_none, find?_eq_head?_given, given,
    List.filterMap_reverse, List.head?_reverse, given]

/-! ## Scalars -/

theorem asString_eq_ok_iff {s : String} : asString json = .ok s ↔ json = .string s := by
  unfold asString
  split
  · rw [Except.ok.injEq, Json.string.injEq]
  · rename_i other
    exact ⟨nofun, fun same => absurd same (other s)⟩

theorem asBool_eq_ok_iff {b : Bool} : asBool json = .ok b ↔ json = .bool b := by
  unfold asBool
  split
  · rw [Except.ok.injEq, Json.bool.injEq]
  · rename_i other
    exact ⟨nofun, fun same => absurd same (other b)⟩

theorem asNatural_eq_ok_iff {n : Nat} : asNatural json = .ok n ↔ json = .nat n := by
  unfold asNatural
  split
  · rw [Json.nat, Except.ok.injEq, Json.number.injEq, Json.Number.natural.injEq]
  · exact ⟨nofun, nofun⟩
  · rename_i other _
    exact ⟨nofun, fun same => absurd same (other n)⟩

/-! ## Records -/

/-- The value is a record of some strings: an array of them, or an object in
    which they stand last under their names. -/
inductive Record (names : List String) : Json → List String → Prop
  | array (values) (each : values.length = names.length) : Record names (.strings values) values
  | object {fields : List (String × Json)} {values}
    (last : List.Forall₂ (fun name s => (given name fields).getLast? = some (.string s))
      names values) :
    Record names (.object fields) values

/-- The value is a record of one truth value, which may be left out. -/
inductive Flag (name : String) : Json → Bool → Prop
  | empty : Flag name (.array []) false
  | array {b : Bool} : Flag name (.array [.bool b]) b
  | absent {fields : List (String × Json)} (missing : given name fields = []) :
    Flag name (.object fields) false
  | object {fields : List (String × Json)} {b : Bool}
    (last : (given name fields).getLast? = some (.bool b)) : Flag name (.object fields) b

theorem requiredString_eq_ok_iff {object : Json.Object} {s : String} :
    requiredString name object = .ok s ↔ object.find? name = some (.string s) := by
  unfold requiredString
  split
  · rename_i json found
    rw [asString_eq_ok_iff, found, Option.some_inj]
  · rename_i absent
    rw [absent]
    exact ⟨nofun, nofun⟩

/-- All fields are looked at, but only those that are asked for matter. -/
theorem checkStrings_of_found {names : List String} {object : Json.Object}
    (nodup : (Table.names object).Nodup)
    (found : ∀ name ∈ names, ∃ s, object.find? name = some (.string s)) :
    checkStrings names object = .ok () := by
  have each : ∀ field ∈ object, (if names.contains field.1 then
      (asString field.2).map fun _ => () else .ok ()) = .ok () := by
    rintro ⟨name, json⟩ mem
    split
    · rename_i asked
      obtain ⟨s, here⟩ := found name (List.contains_iff_mem.1 asked)
      rw [(Table.find?_eq_some_iff_of_nodup nodup).2 mem] at here
      cases here
      rfl
    · rfl
  unfold checkStrings
  clear nodup found
  induction object with
  | nil => rfl
  | cons field object ih =>
    obtain ⟨first, others⟩ := List.forall_mem_cons.1 each
    exact bind_eq_ok_iff.2 ⟨(), first, ih others⟩

theorem noMoreItems_eq_ok_iff {count : Nat} {extra : List Json} :
    noMoreItems count extra = .ok () ↔ extra = [] := by
  unfold noMoreItems
  split
  · rename_i empty
    exact iff_of_true rfl (List.isEmpty_iff.1 empty)
  · rename_i more
    exact ⟨nofun, fun empty => absurd (List.isEmpty_iff.2 empty) more⟩

theorem asFlag_eq_ok_iff {record : String} {b : Bool} :
    asFlag record name json = .ok b ↔ Flag name json b := by
  constructor
  · intro read
    unfold asFlag at read
    split at read
    · cases read
      exact .empty
    · obtain ⟨_, first, read⟩ := bind_eq_ok_iff.1 read
      obtain ⟨_, last, ⟨⟩⟩ := bind_eq_ok_iff.1 read
      rw [asBool_eq_ok_iff.1 first, noMoreItems_eq_ok_iff.1 last]
      exact .array
    · split at read
      · rename_i found
        rw [find?_insertAll_nil, asBool_eq_ok_iff.1 read] at found
        exact .object found
      · rename_i absent
        cases read
        rw [find?_insertAll_nil, List.getLast?_eq_none_iff] at absent
        exact .absent absent
    · cases read
  · rintro (_ | _ | missing | last)
    · rfl
    · rfl
    · simp only [asFlag, find?_insertAll_nil, missing, List.getLast?_nil]
    · simp only [asFlag, find?_insertAll_nil, last, asBool]

theorem requiredString_insertAll {s : String} :
    requiredString name (Table.insertAll fields []) = .ok s ↔
      (given name fields).getLast? = some (.string s) := by
  rw [requiredString_eq_ok_iff, find?_insertAll_nil]

theorem checkStrings_insertAll {names values : List String}
    (last : List.Forall₂ (fun name s => (given name fields).getLast? = some (.string s))
      names values) :
    checkStrings names (Table.insertAll fields []) = .ok () := by
  refine checkStrings_of_found (Table.Ordered.nil.insertAll fields).nodup ?_
  simp only [find?_insertAll_nil]
  induction last with
  | nil => exact nofun
  | cons first _ ih => exact List.forall_mem_cons.2 ⟨⟨_, first⟩, ih⟩

theorem asOne_eq_ok_iff {record first x : String} :
    asOne record first json = .ok x ↔ Record [first] json [x] := by
  constructor
  · intro read
    unfold asOne at read
    split at read
    · cases read
    · obtain ⟨_, one, read⟩ := bind_eq_ok_iff.1 read
      obtain ⟨_, last, ⟨⟩⟩ := bind_eq_ok_iff.1 read
      rw [asString_eq_ok_iff.1 one, noMoreItems_eq_ok_iff.1 last]
      exact .array [x] rfl
    · obtain ⟨_, -, read⟩ := bind_eq_ok_iff.1 read
      exact .object (.cons (requiredString_insertAll.1 read) .nil)
    · cases read
  · rintro (_ | last)
    · rfl
    · have ⟨one, _⟩ := List.forall₂_cons.1 last
      refine bind_eq_ok_iff.2 ⟨(), checkStrings_insertAll last, ?_⟩
      exact requiredString_insertAll.2 one

theorem asTwo_eq_ok_iff {record first second x y : String} :
    asTwo record first second json = .ok (x, y) ↔ Record [first, second] json [x, y] := by
  constructor
  · intro read
    unfold asTwo at read
    split at read
    · cases read
    · obtain ⟨_, -, ⟨⟩⟩ := bind_eq_ok_iff.1 read
    · obtain ⟨_, one, read⟩ := bind_eq_ok_iff.1 read
      obtain ⟨_, two, read⟩ := bind_eq_ok_iff.1 read
      obtain ⟨_, last, ⟨⟩⟩ := bind_eq_ok_iff.1 read
      rw [asString_eq_ok_iff.1 one, asString_eq_ok_iff.1 two, noMoreItems_eq_ok_iff.1 last]
      exact .array [x, y] rfl
    · obtain ⟨_, -, read⟩ := bind_eq_ok_iff.1 read
      obtain ⟨_, one, read⟩ := bind_eq_ok_iff.1 read
      obtain ⟨_, two, ⟨⟩⟩ := bind_eq_ok_iff.1 read
      exact .object (.cons (requiredString_insertAll.1 one)
        (.cons (requiredString_insertAll.1 two) .nil))
    · cases read
  · rintro (_ | last)
    · rfl
    · have ⟨one, rest⟩ := List.forall₂_cons.1 last
      have ⟨two, _⟩ := List.forall₂_cons.1 rest
      refine bind_eq_ok_iff.2 ⟨(), checkStrings_insertAll last, ?_⟩
      refine bind_eq_ok_iff.2 ⟨x, requiredString_insertAll.2 one, ?_⟩
      exact bind_eq_ok_iff.2 ⟨y, requiredString_insertAll.2 two, rfl⟩

/-! ## Requests -/

/-- The value is a request: an object with its fields, none of them twice, or an
    array of them.  In an object the parameters may be left out. -/
inductive Forms : Json → Request → Prop
  | object {fields : List (String × Json)} {id : Nat} {type : String} {params? : Option Json}
    (ids : given "id" fields = [.nat id]) (types : given "type" fields = [.string type])
    (params : given "params" fields = params?.toList) :
    Forms (.object fields) ⟨id, type, Request.paramsOf params?⟩
  | array {id : Nat} {type : String} {params : Json} :
    Forms (.array [.nat id, .string type, params]) ⟨id, type, Request.paramsOf (some params)⟩

namespace Request

/-- What taking in a field makes of a draft. -/
inductive Draft.Adds (draft : Draft) : String → Json → Draft → Prop
  | id {n : Nat} (first : draft.id = none) : Adds draft "id" (.nat n) { draft with id := some n }
  | type {s : String} (first : draft.type = none) :
    Adds draft "type" (.string s) { draft with type := some s }
  | params {json : Json} (first : draft.params = none) :
    Adds draft "params" json { draft with params := some json }
  | other {name : String} {json : Json} (unknown : name ∉ fieldNames) : Adds draft name json draft

/-- The draft holds what is given in some fields. -/
structure Draft.Holds (draft : Draft) (fields : List (String × Json)) : Prop where
  id : given "id" fields = (draft.id.map Json.nat).toList
  type : given "type" fields = (draft.type.map Json.string).toList
  params : given "params" fields = draft.params.toList

variable {draft draft' : Draft} {request : Request}

theorem Draft.add_eq_ok_iff : draft.add name json = .ok draft' ↔ draft.Adds name json draft' := by
  constructor
  · intro added
    unfold Draft.add at added
    split at added
    · split at added
      · cases added
      · rename_i first
        obtain ⟨n, read, rfl⟩ := map_eq_ok_iff.1 added
        rw [asNatural_eq_ok_iff.1 read]
        exact .id (Option.not_isSome_iff_eq_none.1 first)
    · split at added
      · cases added
      · rename_i first
        obtain ⟨s, read, rfl⟩ := map_eq_ok_iff.1 added
        rw [asString_eq_ok_iff.1 read]
        exact .type (Option.not_isSome_iff_eq_none.1 first)
    · split at added <;> cases added
      rename_i first
      exact .params (Option.not_isSome_iff_eq_none.1 first)
    · rename_i notId notType notParams
      cases added
      refine .other ?_
      simp only [fieldNames, List.mem_cons, List.not_mem_nil, or_false, not_or]
      exact ⟨notId, notType, notParams⟩
  · rintro (first | first | first | unknown)
    · simp only [add, first]
      rfl
    · simp only [add, first]
      rfl
    · simp only [add, first]
      rfl
    · simp only [fieldNames, List.mem_cons, List.not_mem_nil, or_false, not_or] at unknown
      obtain ⟨notId, notType, notParams⟩ := unknown
      unfold add
      split
      · exact absurd rfl notId
      · exact absurd rfl notType
      · exact absurd rfl notParams
      · rfl

theorem concat_eq_toList_iff {α : Type} {xs : List α} {x : α} {x? : Option α} :
    xs ++ [x] = x?.toList ↔ xs = [] ∧ x? = some x := by
  cases x? with
  | none => simp
  | some y => simp [List.append_eq_singleton_iff, eq_comm]

theorem Draft.holds_concat_unknown (unknown : name ∉ fieldNames) :
    draft.Holds (fields ++ [(name, json)]) ↔ draft.Holds fields := by
  have skip {known : String} (mem : known ∈ fieldNames) :
      given known (fields ++ [(name, json)]) = given known fields := by
    refine given_concat_other ?_ json
    rintro rfl
    exact unknown mem
  constructor
  · rintro ⟨ids, types, params⟩
    exact ⟨(skip (by decide)).symm.trans ids, (skip (by decide)).symm.trans types,
      (skip (by decide)).symm.trans params⟩
  · rintro ⟨ids, types, params⟩
    exact ⟨(skip (by decide)).trans ids, (skip (by decide)).trans types,
      (skip (by decide)).trans params⟩

/-- What a draft holds is taken in field by field. -/
theorem Draft.holds_concat : draft.Holds (fields ++ [(name, json)]) ↔
    ∃ before : Draft, before.Holds fields ∧ before.Adds name json draft := by
  constructor
  · obtain ⟨id?, type?, params?⟩ := draft
    rintro ⟨ids, types, params⟩
    by_cases known : name ∈ fieldNames
    · simp only [fieldNames, List.mem_cons, List.not_mem_nil, or_false] at known
      rcases known with rfl | rfl | rfl
      · rw [given_concat_own, concat_eq_toList_iff, Option.map_eq_some_iff] at ids
        rw [given_concat_other (by decide)] at types params
        obtain ⟨nothing, n, ⟨⟩, rfl⟩ := ids
        exact ⟨⟨none, type?, params?⟩, ⟨nothing, types, params⟩, .id rfl⟩
      · rw [given_concat_own, concat_eq_toList_iff, Option.map_eq_some_iff] at types
        rw [given_concat_other (by decide)] at ids params
        obtain ⟨nothing, s, ⟨⟩, rfl⟩ := types
        exact ⟨⟨id?, none, params?⟩, ⟨ids, nothing, params⟩, .type rfl⟩
      · rw [given_concat_own, concat_eq_toList_iff] at params
        rw [given_concat_other (by decide)] at ids types
        obtain ⟨nothing, ⟨⟩⟩ := params
        exact ⟨⟨id?, type?, none⟩, ⟨ids, types, nothing⟩, .params rfl⟩
    · exact ⟨_, (holds_concat_unknown known).1 ⟨ids, types, params⟩, .other known⟩
  · rintro ⟨before, holds, first | first | first | unknown⟩
    · obtain ⟨ids, types, params⟩ := holds
      rw [first] at ids
      constructor
      · rw [given_concat_own, ids]
        rfl
      · rw [given_concat_other (by decide), types]
      · rw [given_concat_other (by decide), params]
    · obtain ⟨ids, types, params⟩ := holds
      rw [first] at types
      constructor
      · rw [given_concat_other (by decide), ids]
      · rw [given_concat_own, types]
        rfl
      · rw [given_concat_other (by decide), params]
    · obtain ⟨ids, types, params⟩ := holds
      rw [first] at params
      constructor
      · rw [given_concat_other (by decide), ids]
      · rw [given_concat_other (by decide), types]
      · rw [given_concat_own, params]
        rfl
    · exact (holds_concat_unknown unknown).2 holds

/-- Fields can be taken in one after another if no field of a request stands
    twice or has a wrong value; the draft then holds what they give. -/
theorem foldlM_add_eq_ok_iff :
    fields.foldlM (fun draft (name, json) => Draft.add draft name json) ⟨none, none, none⟩ =
      .ok draft ↔ draft.Holds fields := by
  -- from the end, since whether a field stands twice is seen at the later one
  induction fields using List.reverseRecOn generalizing draft with
  | nil =>
    obtain ⟨id?, type?, params?⟩ := draft
    constructor
    · rintro ⟨⟩
      exact ⟨rfl, rfl, rfl⟩
    · rintro ⟨ids, types, params⟩
      cases Option.map_eq_none_iff.1 (Option.toList_eq_nil_iff.1 ids.symm)
      cases Option.map_eq_none_iff.1 (Option.toList_eq_nil_iff.1 types.symm)
      cases Option.toList_eq_nil_iff.1 params.symm
      rfl
  | append_singleton fields field ih =>
    obtain ⟨name, json⟩ := field
    rw [List.foldlM_append, bind_eq_ok_iff, Draft.holds_concat]
    refine exists_congr fun before => and_congr ih ?_
    rw [← Draft.add_eq_ok_iff, List.foldlM_cons, bind_eq_ok_iff]
    constructor
    · rintro ⟨_, added, ⟨⟩⟩
      exact added
    · intro added
      exact ⟨draft, added, rfl⟩

theorem ofJson_eq_ok_iff : ofJson json = .ok request ↔ Forms json request := by
  constructor
  · intro read
    cases json with
    | object fields =>
      obtain ⟨⟨id?, type?, params?⟩, drafted, read⟩ := bind_eq_ok_iff.1 read
      obtain ⟨ids, types, params⟩ := foldlM_add_eq_ok_iff.1 drafted
      cases id? with
      | none => cases read
      | some id =>
        cases type? with
        | none => cases read
        | some type =>
          cases read
          exact .object ids types params
    | array items =>
      unfold ofJson at read
      simp only at read
      split at read
      · cases read
      · obtain ⟨_, -, ⟨⟩⟩ := bind_eq_ok_iff.1 read
      · obtain ⟨_, -, read⟩ := bind_eq_ok_iff.1 read
        obtain ⟨_, -, ⟨⟩⟩ := bind_eq_ok_iff.1 read
      · obtain ⟨_, first, read⟩ := bind_eq_ok_iff.1 read
        obtain ⟨_, second, read⟩ := bind_eq_ok_iff.1 read
        split at read
        · rename_i last
          cases read
          rw [asNatural_eq_ok_iff.1 first, asString_eq_ok_iff.1 second, List.isEmpty_iff.1 last]
          exact .array
        · cases read
    | null | bool | number | string => cases read
  · rintro (⟨ids, types, params⟩ | _)
    · exact bind_eq_ok_iff.2 ⟨⟨some _, some _, _⟩, foldlM_add_eq_ok_iff.2 ⟨ids, types, params⟩, rfl⟩
    · rfl

/-- The line is a request.  Only when it is not JSON because of a field that
    nobody asks for, that field is skipped. -/
inductive Reads (line : String) : Request → Prop
  | json {json : Json} {request : Request} (parsed : Json.parse? line = some json)
    (forms : Forms json request) : Reads line request
  | skipping {fields : List (String × Json)} {request : Request}
    (unparsed : Json.parse? line = none) (named : Json.fieldsNamed? fieldNames line = some fields)
    (forms : Forms (.object fields) request) : Reads line request

theorem ofLine_eq_ok_iff {line : String} : ofLine line = .ok request ↔ Reads line request := by
  constructor
  · intro read
    unfold ofLine at read
    split at read
    · rename_i json parsed
      exact .json parsed (ofJson_eq_ok_iff.1 read)
    · rename_i unparsed
      split at read
      · rename_i found
        cases read
        obtain ⟨fields, named, formed⟩ := Option.map_eq_some_iff.1 found
        exact .skipping unparsed named (ofJson_eq_ok_iff.1 formed)
      · cases read
  · rintro (⟨parsed, forms⟩ | ⟨unparsed, named, forms⟩)
    · simp only [ofLine, parsed]
      exact ofJson_eq_ok_iff.2 forms
    · simp only [ofLine, unparsed, named, Option.map_some, ofJson_eq_ok_iff.2 forms]

end Request

/-! ## Operations -/

/-- The request asks for an operation, and its parameters are those that the
    operation takes. -/
inductive Asks : Request → Operation → Prop
  | attach {id params force} (flag : Flag "force" params force) :
    Asks ⟨id, "attach-debugger", params⟩ (.attach force)
  | reply {id params key input} (record : Record ["key", "input"] params [key, input]) :
    Asks ⟨id, "submit-debug-reply", params⟩ (.reply key input)
  | evaluate {id params session code}
    (record : Record ["session", "code"] params [session, code]) :
    Asks ⟨id, "eval", params⟩ (.evaluate session code)
  | close {id params session} (record : Record ["session"] params [session]) :
    Asks ⟨id, "close-session", params⟩ (.close session)
  | sessions {id params} : Asks ⟨id, "sessions", params⟩ .sessions

theorem Operation.ofRequest?_eq_ok_iff {request : Request} {operation : Operation} :
    ofRequest? request = some (.ok operation) ↔ Asks request operation := by
  constructor
  · obtain ⟨id, type, params⟩ := request
    intro known
    unfold ofRequest? at known
    simp only at known
    split at known
    · obtain ⟨force, read, rfl⟩ := map_eq_ok_iff.1 (Option.some.inj known)
      exact .attach (asFlag_eq_ok_iff.1 read)
    · obtain ⟨⟨key, input⟩, read, rfl⟩ := map_eq_ok_iff.1 (Option.some.inj known)
      exact .reply (asTwo_eq_ok_iff.1 read)
    · obtain ⟨⟨session, code⟩, read, rfl⟩ := map_eq_ok_iff.1 (Option.some.inj known)
      exact .evaluate (asTwo_eq_ok_iff.1 read)
    · obtain ⟨session, read, rfl⟩ := map_eq_ok_iff.1 (Option.some.inj known)
      exact .close (asOne_eq_ok_iff.1 read)
    · cases known
      exact .sessions
    · cases known
  · rintro (flag | record | record | record | _)
    · exact congrArg some (map_eq_ok_iff.2 ⟨_, asFlag_eq_ok_iff.2 flag, rfl⟩)
    · exact congrArg some (map_eq_ok_iff.2 ⟨_, asTwo_eq_ok_iff.2 record, rfl⟩)
    · exact congrArg some (map_eq_ok_iff.2 ⟨_, asTwo_eq_ok_iff.2 record, rfl⟩)
    · exact congrArg some (map_eq_ok_iff.2 ⟨_, asOne_eq_ok_iff.2 record, rfl⟩)
    · rfl

/-- The line asks for an operation under an id. -/
def Means (line : String) (id : Nat) (operation : Operation) : Prop :=
  ∃ request : Request, Request.Reads line request ∧ request.id = id ∧ Asks request operation

end Stepper.Control
