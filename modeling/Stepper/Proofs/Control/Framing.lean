/-
  What goes over the wire.

  Every response and every message is one line of text that holds one JSON
  object, whose fields are those that were put in (`Framed`), whatever names,
  values and texts of clients have got into them (`framing_of_small`).  JSON
  keeps everything but numbers beyond 64 bits; ids are read from lines and
  therefore fit (`idOf_small`), and the server keeps no others
  (`Server.Small`).
-/
import Stepper.Control.Listener
import Stepper.Proofs.Control.Answers
import Stepper.Proofs.Control.Requests
import Stepper.Proofs.Debug.Prompt
import Stepper.Proofs.Json.Numbers
import Stepper.Proofs.Json.Roundtrip

namespace Stepper.Control

open Stepper.Debug Stepper.Eval Stepper.Data Stepper.Host

/-! ## Ids -/

variable {request : Request}

theorem small_of_forms {json : Json} (content : json.Content) (forms : Forms json request) :
    request.id < UInt64.size := by
  cases forms with
  | object ids =>
    cases content with
    | object each =>
      have mem := mem_given_iff.1 (ids ▸ List.mem_singleton_self _)
      exact (each _ mem).small
  | array =>
    cases content with
    | array each => exact (each _ List.mem_cons_self).small

theorem small_of_ofLine {text : String} (read : Request.ofLine text = .ok request) :
    request.id < UInt64.size := by
  cases Request.ofLine_eq_ok_iff.1 read with
  | json parsed forms => exact small_of_forms (Json.isRead_of_parse? parsed).content forms
  | skipping _ named forms =>
    exact small_of_forms (.object (Json.isRead_of_fieldsNamed? named)) forms

/-- The id of a line fits into 64 bits. -/
theorem idOf_small (text : String) : idOf text < UInt64.size := by
  unfold idOf
  split
  · rename_i request read
    exact small_of_ofLine read
  · decide

/-- The ids that the server keeps fit into 64 bits. -/
structure Server.Small (s : Server) : Prop where
  jobs : ∀ job ∈ s.jobs, job.request < UInt64.size
  asked : ∀ job ∈ s.jobs, ∀ a, job.evaluation.stage.client? = some a → a.request < UInt64.size
  slot : ∀ a, s.debugger.slot = some a → a.request < UInt64.size

variable {s t : Server} {m : Move}

theorem small_of_operation? {text : String} {id : Nat} {operation : Operation}
    (asked : operation? text = some (id, operation)) : id < UInt64.size := by
  have taken : (Server.new .default).take .granted 0 text =
      (Server.new .default).perform .granted 0 id operation ∧ idOf text = id :=
    Server.take_of_operation?_eq_some asked
  rw [← taken.2]
  exact idOf_small text

namespace Server.Small

theorem new (settings : Settings) : (Server.new settings).Small where
  jobs _ mem := absurd mem List.not_mem_nil
  asked _ mem := absurd mem List.not_mem_nil
  slot := nofun

theorem act (small : s.Small) (m : Move) : (s.act m).Small := by
  cases s.effect_act m with
  | calm _ _ _ _ jobs slot =>
    constructor
    · rw [jobs]
      exact small.jobs
    · rw [jobs]
      exact small.asked
    · rw [slot]
      exact small.slot
  | release _ result =>
    rw [result]
    refine ⟨small.jobs, small.asked, ?_⟩
    intro a attached
    exact small.slot a (AttachmentSlot.detach_eq_some_iff.1 attached).1
  | evaluate _ asked _ result =>
    rw [result]
    refine ⟨?_, ?_, small.slot⟩
    · intro job mem
      rcases List.mem_append.1 mem with mem | mem
      · exact small.jobs job mem
      · rw [List.mem_singleton.1 mem]
        exact small_of_operation? asked
    · intro job mem a asks
      rcases List.mem_append.1 mem with mem | mem
      · exact small.asked job mem a asks
      · rw [List.mem_singleton.1 mem] at asks
        cases asks
  | attach _ asked admitted result =>
    rw [result]
    refine ⟨small.jobs, small.asked, ?_⟩
    intro b attached
    cases (Debugger.attach_of_admitted _ admitted).2.symm.trans attached
    exact small_of_operation? asked
  | goes _ here _ proceeds _ result =>
    rw [result]
    have there := List.mem_of_getElem? here
    have slot := Service.slot_of_touches proceeds.touches
    refine ⟨?_, ?_, ?_⟩
    · intro job mem
      rcases List.mem_or_eq_of_mem_set mem with mem | rfl
      · exact small.jobs job mem
      · have old := small.jobs _ there
        exact old
    · intro job mem a asks
      rcases List.mem_or_eq_of_mem_set mem with mem | rfl
      · exact small.asked job mem a asks
      · rcases proceeds.client? asks with asks | attached
        · exact small.asked _ there a asks
        · exact small.slot a attached
    · intro a attached
      exact small.slot a (slot.symm.trans attached)
  | ends _ _ _ steps result =>
    rw [result]
    have slot := Service.slot_of_touches steps.touches
    refine ⟨?_, ?_, ?_⟩
    · intro job mem
      exact small.jobs job (List.mem_of_mem_eraseIdx mem)
    · intro job mem
      exact small.asked job (List.mem_of_mem_eraseIdx mem)
    · intro a attached
      exact small.slot a (slot.symm.trans attached)

theorem run (small : s.Small) (moves : List Move) : (s.run moves).Small := by
  induction moves generalizing s with
  | nil => exact small
  | cons m moves ih => exact ih (small.act m)

/-- In the course of a history the ids stay small. -/
theorem of_mem_history {e : Entry} {moves : List Move} (small : s.Small)
    (mem : e ∈ s.history moves) : e.server.Small := by
  induction moves generalizing s with
  | nil => cases mem
  | cons m moves ih =>
    rcases List.mem_cons.1 mem with rfl | mem
    · exact small
    · exact ih (small.act m) mem

end Server.Small

/-! ## Lines -/

/-- The text is one line without control characters, which holds one JSON
    object with the given fields. -/
structure Framed (text : String) (fields : List (String × Json)) : Prop where
  printable : ∀ c ∈ text.toList, 0x20 ≤ c.toNat
  object : ∃ object, Json.parse? text = some (.object object) ∧
    ∀ name, Table.find? name object = Table.find? name fields

/-- The fields are written without loss. -/
def Lossless (fields : List (String × Json)) : Prop := ∀ field ∈ fields, field.2.Exact 126

variable {fields object : List (String × Json)}

theorem framed_of_lossless (lossless : Lossless object)
    (same : ∀ name, Table.find? name object = Table.find? name fields) :
    Framed (Json.object object).print fields := by
  have exact : (Json.object object).Exact Json.Reader.maxNesting := .object lossless
  refine ⟨?_, object, Json.parse?_print exact, same⟩
  rw [Json.print, String.toList_ofList]
  exact exact.printable

theorem exact_strings (room : Nat) (items : List String) : (Json.strings items).Exact (room + 1) := by
  refine .array ?_
  intro item mem
  obtain ⟨s, -, rfl⟩ := List.mem_map.1 mem
  exact .string s

theorem Lossless.append {more : List (String × Json)} (h : Lossless fields) (h' : Lossless more) :
    Lossless (fields ++ more) :=
  fun field mem => (List.mem_append.1 mem).elim (h field) (h' field)

theorem Lossless.insertAll (h : Lossless fields) {t : Json.Object} (h' : Lossless t) :
    Lossless (Table.insertAll fields t) :=
  Table.forall_mem_insertAll h h'

theorem Lossless.insert {t : Json.Object} (h : Lossless t) (name : String) {json : Json}
    (exact : json.Exact 126) : Lossless (Table.insert name json t) := by
  intro field mem
  rcases Table.mem_insert mem with rfl | mem
  · exact exact
  · exact h field mem

theorem Lossless.cons {name : String} {json : Json} (first : json.Exact 126) (h : Lossless fields) :
    Lossless ((name, json) :: fields) :=
  List.forall_mem_cons.2 ⟨first, h⟩

theorem Lossless.nil : Lossless [] := List.forall_mem_nil _

/-! ## Responses -/

theorem lossless_response {r : Response} (small : r.id < UInt64.size) (body : Lossless r.body) :
    Lossless r.fields := by
  have error : Lossless (r.error.toList.map fun reason => ("error", .string reason)) := by
    intro field mem
    obtain ⟨reason, -, rfl⟩ := List.mem_map.1 mem
    exact .string reason
  exact ((Lossless.nil.cons (exact_strings 125 r.status)).cons (.natural small)).append error
    |>.append body

variable {connection : Nat} {text : String} {threads : Threads} {r : Response}

/-- Whatever is answered at once is written without loss. -/
theorem lossless_of_take (answered : (s.take threads connection text).1 = .respond r) :
    r.id = idOf text ∧ Lossless r.body := by
  cases asked : operation? text with
  | none =>
    have rejected : ∃ reason,
        s.take threads connection text = (.respond (.rejected (idOf text) reason), s) :=
      Server.take_of_operation?_eq_none asked
    obtain ⟨reason, taken⟩ := rejected
    rw [taken] at answered
    cases answered
    exact ⟨rfl, Lossless.nil⟩
  | some known =>
    obtain ⟨id, operation⟩ := known
    have carried : s.take threads connection text = s.perform threads connection id operation ∧
        idOf text = id :=
      Server.take_of_operation?_eq_some asked
    rw [carried.1] at answered
    rw [carried.2]
    cases operation with
    | attach force =>
      simp only [Server.perform] at answered
      split at answered
      · cases answered
        exact ⟨rfl, Lossless.nil⟩
      · cases answered
      · cases answered
    | evaluate =>
      simp only [Server.perform] at answered
      split at answered
      · cases answered
      · cases answered
        exact ⟨rfl, Lossless.nil⟩
      · cases answered
    | reply | close =>
      cases answered
      exact ⟨rfl, Lossless.nil⟩
    | sessions =>
      cases answered
      exact ⟨rfl, Lossless.nil.cons (exact_strings 125 _)⟩

theorem framed_of_take (answered : (s.take threads connection text).1 = .respond r) :
    Framed r.line r.fields ∧ r.id = idOf text := by
  obtain ⟨id, body⟩ := lossless_of_take answered
  have small : r.id < UInt64.size := by
    rw [id]
    exact idOf_small text
  exact ⟨framed_of_lossless (lossless_response small body) fun _ => rfl, id⟩

theorem framed_response (answered : (s.handle connection text).1 = some r) :
    Framed r.line r.fields ∧ r.id = idOf text := by
  rw [Server.handle] at answered
  exact framed_of_take (Handled.response?_eq_some_iff.1 answered)

/-! ## Messages -/

/-- The messages that can be sent with a move, by their fields. -/
inductive Message (s : Server) (m : Move) : List (String × Json) → Prop
  /-- A prompt of an evaluation that stands at a breakpoint, with the values of
      the names in sight. -/
  | prompt {job site value next dialog ask key locals} (here : job ∈ s.jobs)
    (stands : job.evaluation.stage = .paused site value next (.sending dialog ask key))
    (named : ∀ name, Table.find? name locals =
      (lookup? name site.snapshot.bindings).map fun v => .string v.print) :
    Message s m ([("status", .strings ["awaiting-input"]), ("id", .nat dialog.client.request),
      ("value", .string value.print),
      ("coordinate", .array (site.place.path.map fun step => .nat step.toNat)),
      ("locals", .object locals), ("session", .string job.evaluation.session)]
      ++ dialog.shown.toList.map (fun text => ("eval-result", .string text))
      ++ [("key", .string key.text), ("prompt", .string ask.prompt),
        ("input-kind", ask.kind.toJson)])
  /-- The end of the attachment of a client that is replaced. -/
  | replaced {a} (attached : s.debugger.slot = some a) :
    Message s m [("status", .strings ["done"]), ("id", .nat a.request)]
  /-- The answer to the request for an evaluation that ends. -/
  | answer {job result} (here : job ∈ s.jobs)
    (ended : s.ended? m = some (job.evaluation.ticket, result)) :
    Message s m (answerTo job.request (.ofResult result)).fields

theorem lossless_message {a : Attachment} (small : a.request < UInt64.size) (status : List String)
    {body : Json.Object} (lossless : Lossless body) : Lossless (a.message status body) := by
  have identified : Lossless (Table.insert "id" (.nat a.request) body) :=
    lossless.insert "id" (.natural small)
  exact identified.insert "status" (exact_strings 125 status)

section

variable (hit : Hit) (dialog : Dialog) (ask : Ask) (key : Key)

theorem exact_placeJson : hit.placeJson.Exact 126 := by
  refine .array ?_
  intro item mem
  obtain ⟨step, -, rfl⟩ := List.mem_map.1 mem
  exact .natural (Nat.lt_trans step.toNat_lt (by decide))

theorem exact_localsJson : hit.localsJson.Exact 126 := by
  refine .object (Table.forall_mem_insertAll ?_ (List.forall_mem_nil _))
  intro entry mem
  obtain ⟨⟨name, value⟩, -, rfl⟩ := List.mem_map.1 mem
  exact .string value.print

theorem lossless_promptBody : Lossless (hit.promptBody dialog ask key) := by
  have shown : Lossless (dialog.shown.toList.map fun text => ("eval-result", .string text)) := by
    intro entry mem
    obtain ⟨text, -, rfl⟩ := List.mem_map.1 mem
    exact .string text
  have display : Lossless (hit.display dialog.shown) := by
    refine Lossless.insertAll (Lossless.append ?_ shown) Lossless.nil
    exact (((Lossless.nil.cons (.string _)).cons (exact_localsJson hit)).cons
      (exact_placeJson hit)).cons (.string _)
  have kind : ask.kind.toJson.Exact 126 := by
    cases ask.kind with
    | command => exact exact_strings 125 _
    | expression => exact .string _
  refine display.insertAll (Lossless.insertAll ?_ Lossless.nil)
  exact ((Lossless.nil.cons kind).cons (.string _)).cons (.string _)

end

/-- A prompt is framed. -/
theorem framed_prompt (hit : Hit) {dialog : Dialog} {ask : Ask} {key : Key}
    (small : dialog.client.request < UInt64.size) :
    Framed
      (Json.object (dialog.client.message ["awaiting-input"] (hit.promptBody dialog ask key))).print
      ([("status", .strings ["awaiting-input"]), ("id", .nat dialog.client.request),
        ("value", .string hit.value.print), ("coordinate", hit.placeJson),
        ("locals", hit.localsJson), ("session", .string hit.session)]
        ++ dialog.shown.toList.map (fun text => ("eval-result", .string text))
        ++ [("key", .string key.text), ("prompt", .string ask.prompt),
          ("input-kind", ask.kind.toJson)]) := by
  refine framed_of_lossless (lossless_message small _ (lossless_promptBody hit dialog ask key)) ?_
  intro name
  rw [find?_message, Table.find?, Table.find?, find?_promptBody]
  rfl

theorem framed_replaced {a : Attachment} (small : a.request < UInt64.size) :
    Framed (Json.object (a.message ["done"] [])).print
      [("status", .strings ["done"]), ("id", .nat a.request)] :=
  framed_of_lossless (lossless_message small _ Lossless.nil) (find?_message a _ _)

theorem framed_answer {request : Nat} (small : request < UInt64.size) (outcome : Outcome) :
    Framed (Json.object (answerTo request outcome).message).print
      (answerTo request outcome).fields := by
  have lossless : (answerTo request outcome).id < UInt64.size ∧
      Lossless (answerTo request outcome).body := by
    cases outcome with
    | value v => exact ⟨small, Lossless.nil.cons (.string _)⟩
    | error | aborted => exact ⟨small, Lossless.nil⟩
  have distinct : (Table.names (answerTo request outcome).fields).Nodup := by
    cases outcome <;>
      simp [answerTo, Response.fields, Response.done, Response.rejected, Table.names]
  refine framed_of_lossless ((lossless_response lossless.1 lossless.2).insertAll Lossless.nil) ?_
  intro name
  have nothing : Table.find? name ([] : Table Json) = none := rfl
  rw [Response.message, Table.find?_insertAll_of_nodup distinct, nothing, Option.or_none]

/-- The message is one that can be sent with the move, and is framed. -/
def FramedWith (s : Server) (m : Move) (x : Delivery) : Prop :=
  ∃ fields, Message s m fields ∧ Framed (Json.object x.message).print fields

/-- The messages that come with a move are put after those offered before, and
    each of them is framed. -/
theorem Server.Small.offered_act (small : s.Small) (m : Move) :
    ∃ xs, (s.act m).debugger.net.offered = s.debugger.net.offered ++ xs ∧
      ∀ x ∈ xs, FramedWith s m x := by
  have silent (same : (s.act m).debugger.net.offered = s.debugger.net.offered) :
      ∃ xs, (s.act m).debugger.net.offered = s.debugger.net.offered ++ xs ∧
        ∀ x ∈ xs, FramedWith s m x :=
    ⟨[], by rw [same, List.append_nil], List.forall_mem_nil _⟩
  cases s.effect_act m with
  | calm _ _ _ _ _ _ _ offered => exact silent offered
  | release _ result | evaluate _ _ _ result => exact silent (by rw [result]; rfl)
  | attach mover asked admitted result =>
    cases attached : s.debugger.slot with
    | none =>
      rw [Debugger.attach_of_free _ _ attached] at result
      exact silent (by rw [result])
    | some previous =>
      cases admitted.resolve_left (by rw [attached]; exact nofun)
      rw [Debugger.attach_of_taken _ attached] at result
      refine ⟨_, by rw [result]; rfl, List.forall_mem_singleton.2 ?_⟩
      exact ⟨_, .replaced attached, framed_replaced (small.slot _ attached)⟩
  | @goes i job stage d mover here unended proceeds going result =>
    have there := List.mem_of_getElem? here
    rcases proceeds.sent with same | ⟨site, value, next, dialog, ask, key, failed, stands, offered⟩
    · exact silent (by rw [result]; exact same)
    · have asks : job.evaluation.stage.client? = some dialog.client := by
        rw [stands]
        rfl
      refine ⟨_, by rw [result]; exact offered, List.forall_mem_singleton.2 ?_⟩
      exact ⟨_, .prompt there stands fun name => find?_locals name site.snapshot.bindings,
        framed_prompt (job.evaluation.hit site value) (small.asked _ there _ asks)⟩
  | @ends i job value d mover here ended steps result =>
    have there := List.mem_of_getElem? here
    have unmoved : d.net = s.debugger.net := steps.net_of_ended
    refine ⟨_, by rw [result, Debugger.mapNet, unmoved]; rfl, List.forall_mem_singleton.2 ?_⟩
    exact ⟨_, .answer there ended, framed_answer (small.jobs _ there) _⟩

/-- The messages of a run are put one after another. -/
theorem Server.Small.offered_run (small : s.Small) (moves : List Move) :
    (s.run moves).debugger.net.offered =
      s.debugger.net.offered ++ (s.history moves).flatMap Entry.sent := by
  induction moves generalizing s with
  | nil => rw [history, List.flatMap_nil, List.append_nil]; rfl
  | cons m moves ih =>
    obtain ⟨xs, offered, -⟩ := small.offered_act m
    calc ((s.act m).run moves).debugger.net.offered
        = (s.act m).debugger.net.offered ++ ((s.act m).history moves).flatMap Entry.sent :=
          ih (small.act m)
      _ = s.debugger.net.offered ++ (s.history (m :: moves)).flatMap Entry.sent := by
          rw [history, List.flatMap_cons, Entry.sent_eq offered, offered, List.append_assoc]

theorem Server.Small.framed_of_mem_sent {e : Entry} {moves : List Move} (small : s.Small)
    (mem : e ∈ s.history moves) : ∀ x ∈ e.sent, FramedWith e.server e.move x := by
  obtain ⟨xs, offered, framed⟩ := (small.of_mem_history mem).offered_act e.move
  have sent : e.sent = xs := Entry.sent_eq offered
  rw [sent]
  exact framed

/-! ## Lines that clients receive -/

/-- Everything has been answered and handed over. -/
structure Server.Drained (s : Server) : Prop where
  answered : s.Answered
  offered : s.debugger.net.offered = []

theorem Server.Drained.new (settings : Settings) : (Server.new settings).Drained :=
  ⟨.new settings, rfl⟩

/-- What follows when a line is handled is done by steps of the evaluations. -/
theorem Server.Drained.exists_run_line (drained : s.Drained) (number : Nat) (text : String) :
    ∃ moves, s.run (.line number text :: moves) = (s.handle number text).2.rest := by
  obtain ⟨moves, -, rested⟩ := (drained.answered.act (.line number text)).exists_run_rest
  exact ⟨moves, rested⟩

namespace Server.Small

variable {number : Nat} {text : String}

/-- When a line has been taken, the server is in order again. -/
theorem takeLine (small : s.Small) (drained : s.Drained) (number : Nat) (text : String) :
    (Listener.takeLine s number text).2.Small ∧ (Listener.takeLine s number text).2.Drained := by
  unfold Listener.takeLine
  split
  · exact ⟨small, drained⟩
  · obtain ⟨moves, ran⟩ := drained.exists_run_line number text
    have kept := small.run (.line number text :: moves)
    have answered := drained.answered.run (.line number text :: moves)
    rw [ran] at kept answered
    exact ⟨⟨kept.jobs, kept.asked, kept.slot⟩, answered, rfl⟩

/-- What a client receives when a line is taken is the response to it, or a
    message sent with it or with a step of an evaluation after it. -/
theorem framed_of_mem_takeLine {x : Received} (small : s.Small) (drained : s.Drained)
    (mem : x ∈ (Listener.takeLine s number text).1) :
    ∃ fields, Framed x.line fields ∧
      ((x.recipient = number ∧ ∃ r, (s.handle number text).1 = some r ∧ r.fields = fields) ∨
        ∃ moves, ∃ e ∈ s.history (.line number text :: moves), Message e.server e.move fields) := by
  unfold Listener.takeLine at mem
  split at mem
  · cases mem
  · rcases List.mem_append.1 mem with mem | mem
    · obtain ⟨r, answered, rfl⟩ := List.mem_map.1 mem
      have handled := Option.mem_toList.1 answered
      exact ⟨r.fields, (framed_response handled).1, .inl ⟨rfl, r, handled, rfl⟩⟩
    · obtain ⟨y, offered, received⟩ := List.mem_filterMap.1 mem
      obtain ⟨moves, ran⟩ := drained.exists_run_line number text
      rw [Server.drain, ← ran, small.offered_run, drained.offered, List.nil_append] at offered
      obtain ⟨e, entry, sent⟩ := List.mem_flatMap.1 offered
      obtain ⟨fields, message, framed⟩ := small.framed_of_mem_sent entry y sent
      unfold Listener.ofDelivery at received
      split at received
      · cases received
      · cases received
        exact ⟨fields, framed, .inr ⟨moves, e, entry, message⟩⟩

end Server.Small

/-! ## Everything that is written -/

/-- Everything that the server writes is framed. -/
structure Framing (s : Server) : Prop where
  /-- A response bears the id of its line. -/
  response : ∀ connection text r, (s.handle connection text).1 = some r →
    Framed r.line r.fields ∧ r.id = idOf text
  /-- So does a response that is given because the host refuses a thread. -/
  refused : ∀ reason connection text r, (s.take (.refused reason) connection text).1 = .respond r →
    Framed r.line r.fields ∧ r.id = idOf text
  /-- The sessions are listed under their names. -/
  sessions : ∀ connection text id, operation? text = some (id, .sessions) →
    (s.handle connection text).1 =
      some (.done id [("sessions", .strings s.debugger.sessions.names)])
  /-- Whatever happens, with each move only its messages are sent. -/
  messages : ∀ moves, ∀ e ∈ s.history moves, ∀ x ∈ e.sent, FramedWith e.server e.move x
  /-- Clients receive no other lines, and when a line has been taken the server
      is in order again. -/
  received : s.Drained → ∀ number text,
    ((Listener.takeLine s number text).2.Small ∧ (Listener.takeLine s number text).2.Drained) ∧
    ∀ x ∈ (Listener.takeLine s number text).1, ∃ fields, Framed x.line fields ∧
      ((x.recipient = number ∧ ∃ r, (s.handle number text).1 = some r ∧ r.fields = fields) ∨
        ∃ moves, ∃ e ∈ s.history (.line number text :: moves), Message e.server e.move fields)

/-- Everything that a server writes is framed, provided the ids that it keeps
    fit into 64 bits; and they do, whatever has happened since it was new. -/
theorem framing_of_small :
    (∀ settings, (Server.new settings).Drained ∧
      ∀ moves, ((Server.new settings).run moves).Small) ∧
      ∀ s : Server, s.Small → Framing s := by
  refine ⟨fun settings => ⟨.new settings, (Server.Small.new settings).run⟩, fun s small => ?_⟩
  constructor
  case response => exact fun connection text r => framed_response
  case refused => exact fun reason connection text r => framed_of_take
  case sessions =>
    intro connection text id asked
    have carried : s.take .granted connection text = s.perform .granted connection id .sessions ∧
        idOf text = id :=
      Server.take_of_operation?_eq_some asked
    rw [Server.handle, carried.1]
    rfl
  case messages => exact fun moves e mem => small.framed_of_mem_sent mem
  case received =>
    exact fun drained number text =>
      ⟨small.takeLine drained number text, fun x => small.framed_of_mem_takeLine drained⟩

/-- After a request for an evaluation in a session whose name holds a line feed
    and a quotation mark. -/
theorem framing_with_quoted_session :
    let s := (Server.new .default).run [.line 1 "[1,\"eval\",[\"a\\n\\\"\",\"(\"]]"]
    Framing s ∧ (s.handle 1 "[2,\"sessions\",[]]").1.map Response.line =
      some "\x7b\"id\":2,\"status\":[\"done\"],\"sessions\":[\"a\\n\\\"\"]\x7d" :=
  ⟨framing_of_small.2 _ ((framing_of_small.1 _).2 _), by decide +kernel⟩

end Stepper.Control
