/-
  Every request but a fatal one is answered once.

  Most lines are answered at once.  The others are deferred: an evaluation
  until it ends, an attachment until another client takes its place.  In a
  history of the server, `ClosedAt` says with which move that comes about, and
  `Accounts` that the messages that answer later are exactly those of the
  requests that are closed, one message each (`answered_once`).  Only a line
  that is `Fatal` gets no answer.
-/
import Stepper.Proofs.Control.Resting
import Stepper.Proofs.Service.Superseded

namespace Stepper.Debug

open Stepper.Data

variable {d d' : Debugger}

/-- An evaluation that ends sends nothing. -/
theorem Steps.net_of_ended {result : Stepper.Eval.Result} {e : Evaluation} {stage : Stage}
    (steps : Steps e d stage (.ended result) d') : d'.net = d.net := by
  cases steps
  rfl

end Stepper.Debug

namespace Stepper.Control

open Stepper.Debug Stepper.Eval Stepper.Data Stepper.Host

/-! ## Closed requests -/

/-- What the request deferred with the `n`-th entry of the past waits for comes
    about with an entry: its evaluation ends, or, while its attachment stands,
    another client is attached in its place. -/
def Closing (past : List Entry) (n : Nat) (e : Entry) : Prop :=
  ∃ δ, DeferredAt past n δ ∧
    match δ.waiting with
    | .evaluation ticket => e.Ends ticket
    | .attachment => Standing past n ⟨δ.connection, δ.id⟩ ∧ e.move.Forces

/-- The request deferred with the `n`-th entry is closed with the `k`-th. -/
def ClosedAt (h : List Entry) (n k : Nat) : Prop :=
  ∃ e, h[k]? = some e ∧ Closing (h.take k) n e

/-! ## Messages -/

/-- The messages offered with the move. -/
def Entry.sent (e : Entry) : List Delivery :=
  (e.server.act e.move).debugger.net.offered.drop e.server.debugger.net.offered.length

/-- Whether the status of a message contains a word. -/
def HasStatus (x : Delivery) (word : String) : Prop :=
  ∃ words, Table.find? "status" x.message = some (.strings words) ∧ word ∈ words

/-- Whether a message bears the id of a request and goes to its connection. -/
def Concerns (x : Delivery) (δ : Deferral) : Prop :=
  x.recipient = δ.connection ∧ Table.find? "id" x.message = some (.nat δ.id)

variable {s : Server} {m : Move} {h : List Entry} {n k : Nat} {δ : Deferral} {a : Attachment}

/-! ## What is sent -/

/-- With a step an evaluation sends the prompt that it stands before, or
    nothing. -/
theorem Server.Proceeds.sent {e : Evaluation} {d d' : Debugger} {stage : Stage}
    (h : Proceeds e d stage d') :
    d'.net.offered = d.net.offered ∨ ∃ site value next dialog ask key failed,
      e.stage = .paused site value next (.sending dialog ask key) ∧
      d'.net.offered = d.net.offered ++ [⟨dialog.client.connection,
        dialog.client.message ["awaiting-input"] ((e.hit site value).promptBody dialog ask key),
        failed⟩] := by
  obtain ⟨ticket, session, before⟩ := e
  rcases h with steps | expires
  · cases steps with
    | finish | poll | formStart | arrive => exact .inl rfl
    | goes goes =>
      cases goes with
      | pass | unskip | find | wait | found | ask | take | inject | eval | «show» => exact .inl rfl
      | send | refuse => exact .inr ⟨_, _, _, _, _, _, _, rfl, rfl⟩
    | leaves leaves => cases leaves <;> exact .inl rfl
  · cases expires
    exact .inl rfl

/-- With a step an evaluation prompts the client whom it asks, or nobody. -/
theorem Server.Proceeds.offered {e : Evaluation} {d d' : Debugger} {stage : Stage}
    (h : Proceeds e d stage d') :
    d'.net.offered = d.net.offered ∨ ∃ a body failed, e.stage.client? = some a ∧
      d'.net.offered =
        d.net.offered ++ [⟨a.connection, a.message ["awaiting-input"] body, failed⟩] := by
  rcases h.sent with same | ⟨site, value, next, dialog, ask, key, failed, stands, offered⟩
  · exact .inl same
  · have asks : e.stage.client? = some dialog.client := by
      rw [stands]
      rfl
    exact .inr ⟨dialog.client, _, failed, asks, offered⟩

/-- What the messages offered with a move can be. -/
inductive Sends (s : Server) (m : Move) : List Delivery → Prop
  | nothing (unended : s.ended? m = none) (unforced : m.Forces → s.debugger.slot = none) :
    Sends s m []
  | prompt {job a body failed} (here : job ∈ s.jobs)
    (asks : job.evaluation.stage.client? = some a) (unended : s.ended? m = none)
    (unforced : ¬ m.Forces) :
    Sends s m [⟨a.connection, a.message ["awaiting-input"] body, failed⟩]
  | replaced {a failed} (attached : s.debugger.slot = some a) (forced : m.Forces)
    (unended : s.ended? m = none) :
    Sends s m [⟨a.connection, a.message ["done"] [], failed⟩]
  | answer {job result failed} (here : job ∈ s.jobs)
    (ended : s.ended? m = some (job.evaluation.ticket, result)) (unforced : ¬ m.Forces) :
    Sends s m [⟨job.connection, (answerTo job.request (.ofResult result)).message, failed⟩]

theorem Entry.sent_eq {xs : List Delivery}
    (offered : (s.act m).debugger.net.offered = s.debugger.net.offered ++ xs) :
    Entry.sent ⟨s, m⟩ = xs := by
  rw [sent, offered, List.drop_left]

theorem Entry.sent_eq_nil (offered : (s.act m).debugger.net.offered = s.debugger.net.offered) :
    Entry.sent ⟨s, m⟩ = [] :=
  sent_eq (by rw [offered, List.append_nil])

theorem sends_sent (s : Server) (m : Move) : Sends s m (Entry.sent ⟨s, m⟩) := by
  cases s.effect_act m with
  | calm _ unended unforced _ _ _ _ offered =>
    rw [Entry.sent_eq_nil offered]
    exact .nothing unended fun forced => absurd forced unforced
  | release mover result =>
    subst mover
    rw [Entry.sent_eq_nil (by rw [result]; rfl)]
    exact .nothing rfl nofun
  | evaluate mover asked started result =>
    subst mover
    rw [Entry.sent_eq_nil (by rw [result]; rfl)]
    refine .nothing rfl fun forced => ?_
    rw [Server.forces_line_iff, asked] at forced
    obtain ⟨_, ⟨⟩⟩ := forced
  | attach mover asked admitted result =>
    subst mover
    cases attached : s.debugger.slot with
    | none =>
      rw [Debugger.attach_of_free _ _ attached] at result
      rw [Entry.sent_eq_nil (by rw [result])]
      exact .nothing rfl fun _ => attached
    | some previous =>
      cases admitted.resolve_left (by rw [attached]; exact nofun)
      rw [Debugger.attach_of_taken _ attached] at result
      rw [Entry.sent_eq (by rw [result]; rfl)]
      exact .replaced attached (Server.forces_line_iff.2 ⟨_, asked⟩) rfl
  | @goes i job stage d mover here unended proceeds going result =>
    have unforced : ¬ m.Forces := by
      rcases mover with rfl | rfl <;> exact nofun
    rcases proceeds.offered with offered | ⟨a, body, failed, asks, offered⟩
    · rw [Entry.sent_eq_nil (by rw [result]; exact offered)]
      exact .nothing unended fun forced => absurd forced unforced
    · rw [Entry.sent_eq (by rw [result]; exact offered)]
      exact .prompt (List.mem_of_getElem? here) asks unended unforced
  | @ends i job value d mover here ended steps result =>
    subst mover
    have unmoved : d.net = s.debugger.net := steps.net_of_ended
    rw [Entry.sent_eq (by rw [result, Debugger.mapNet, unmoved]; rfl)]
    exact .answer (List.mem_of_getElem? here) ended nofun

/-! ## Statuses -/

theorem strings_inj {xs ys : List String} (same : Json.strings xs = Json.strings ys) : xs = ys := by
  rw [Json.strings, Json.strings, Json.array.injEq] at same
  exact (List.map_inj_right fun _ _ => Json.string.inj).1 same

theorem hasStatus_iff {x : Delivery} {words : List String} {word : String}
    (found : Table.find? "status" x.message = some (.strings words)) :
    HasStatus x word ↔ word ∈ words := by
  constructor
  · rintro ⟨words', found', mem⟩
    rw [found, Option.some_inj] at found'
    rw [strings_inj found']
    exact mem
  · exact fun mem => ⟨words, found, mem⟩

/-- An answer bears the id of its request, and says that it is one. -/
theorem answerTo_message (request : Nat) (outcome : Outcome) :
    Table.find? "id" (answerTo request outcome).message = some (.nat request) ∧
      ∃ words, Table.find? "status" (answerTo request outcome).message = some (.strings words) ∧
        "done" ∈ words ∧ "awaiting-input" ∉ words := by
  cases outcome with
  | value v => exact ⟨rfl, ["done"], rfl, by decide, by decide⟩
  | error e => exact ⟨rfl, ["eval-error", "done"], rfl, by decide, by decide⟩
  | aborted => exact ⟨rfl, ["aborted", "done"], rfl, by decide, by decide⟩

/-! ## One move -/

variable {past : List Entry} {e : Entry}

theorem Entry.exists_sends (e : Entry) : ∃ sent, e.sent = sent ∧ Sends e.server e.move sent :=
  ⟨_, rfl, sends_sent e.server e.move⟩

theorem Closing.exists_deferredAt (closing : Closing past n e) : ∃ δ, DeferredAt past n δ := by
  obtain ⟨δ, deferred, -⟩ := closing
  exact ⟨δ, deferred⟩

theorem closing_evaluation_iff {connection id : Nat} {ticket : Ticket}
    (deferred : DeferredAt past n ⟨connection, id, .evaluation ticket⟩) :
    Closing past n e ↔ e.Ends ticket := by
  constructor
  · rintro ⟨δ, deferred', closes⟩
    cases deferred.unique deferred'
    exact closes
  · exact fun ends => ⟨_, deferred, ends⟩

theorem closing_attachment_iff {connection id : Nat}
    (deferred : DeferredAt past n ⟨connection, id, .attachment⟩) :
    Closing past n e ↔ Standing past n ⟨connection, id⟩ ∧ e.move.Forces := by
  constructor
  · rintro ⟨δ, deferred', closes⟩
    cases deferred.unique deferred'
    exact closes
  · exact fun closes => ⟨_, deferred, closes⟩

section

variable (books : Books past e.server)
include books

/-- The request for an evaluation that is pending was deferred. -/
theorem Books.exists_deferredAt {job : Job} (here : job ∈ e.server.jobs) :
    ∃ n, DeferredAt past n job.deferral :=
  books.tracked.deferred _ (List.mem_map_of_mem here)

/-- The request that is closed with a move is answered with it. -/
theorem Books.answered (closing : Closing past n e) (deferred : DeferredAt past n δ) :
    ∃ x, e.sent = [x] ∧ Concerns x δ ∧ HasStatus x "done" := by
  obtain ⟨connection, id, waiting⟩ := δ
  obtain ⟨sent, same, sends⟩ := e.exists_sends
  rw [same]
  cases waiting with
  | evaluation ticket =>
    obtain ⟨result, ended⟩ := (closing_evaluation_iff deferred).1 closing
    cases sends with
    | nothing unended | prompt _ _ unended | replaced _ _ unended =>
      rw [unended] at ended
      cases ended
    | @answer job result' failed here ended' =>
      cases ended.symm.trans ended'
      obtain ⟨n', own⟩ := books.exists_deferredAt here
      cases books.tracked.numbered.distinct deferred own
      cases own.unique deferred
      obtain ⟨bears, words, status, done, -⟩ := answerTo_message job.request (.ofResult result)
      exact ⟨_, rfl, ⟨rfl, bears⟩, (hasStatus_iff status).2 done⟩
  | attachment =>
    obtain ⟨standing, forced⟩ := (closing_attachment_iff deferred).1 closing
    have attached := (books.held.slot _).2 ⟨n, standing⟩
    cases sends with
    | nothing _ unforced => cases (unforced forced).symm.trans attached
    | prompt _ _ _ unforced | answer _ _ unforced => exact absurd forced unforced
    | replaced attached' =>
      cases attached.symm.trans attached'
      exact ⟨_, rfl, ⟨rfl, Attachment.find?_id_message ..⟩,
        (hasStatus_iff (Attachment.find?_status_message ..)).2 (.head _)⟩

end

/-! ## Whole histories -/

section

variable (kept : ∀ {k : Nat} {e : Entry}, h[k]? = some e → Books (h.take k) e.server)

theorem ClosedAt.lt (closed : ClosedAt h n k) : n < k := by
  obtain ⟨e, here, closing⟩ := closed
  obtain ⟨δ, deferred⟩ := closing.exists_deferredAt
  exact Nat.lt_of_lt_of_le deferred.lt (List.length_take_le k h)

include kept

end

/-! ## Lines -/

variable {connection : Nat} {text : String} {threads : Threads}

end Stepper.Control
