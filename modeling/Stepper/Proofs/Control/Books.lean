/-
  The open requests of a server.

  A history lists the moves of a server.  `Books` says what it has to do with
  the server to which it has led: every evaluation answers a request that was
  deferred and has not ended (`Tracked`), the client in the slot is the one
  whose attachment stands (`Held`), and whoever is prompted has asked to be
  attached (`Known`).  A move keeps the books (`Books.act`).
-/
import Stepper.Proofs.Control.Moves
import Mathlib.Data.List.Induction
import Mathlib.Data.List.InsertIdx
import Mathlib.Data.List.Nodup

namespace Stepper.Debug

/-- The client whom an evaluation at a breakpoint asks. -/
def Pause.client? : Pause → Option Attachment
  | .asking dialog _ | .sending dialog _ _ | .awaiting dialog _ _ | .answered dialog _ _ =>
    some dialog.client
  | _ => none

/-- The client whom an evaluation asks. -/
def Stage.client? : Stage → Option Attachment
  | .paused _ _ _ pause => pause.client?
  | _ => none

variable {e : Evaluation} {d d' : Debugger} {stage : Stage} {a : Attachment}

theorem Goes.client? {hit : Hit} {p q : Pause} (goes : Goes hit d p q d')
    (asks : q.client? = some a) : p.client? = some a ∨ d.slot = some a := by
  cases goes with
  | pass | unskip | wait | refuse => cases asks
  | find attached | found _ attached => exact .inr (attached.trans asks)
  | ask | send | take | inject | eval | «show» => exact .inl asks

end Stepper.Debug

namespace Stepper.Control

open Stepper.Debug Stepper.Eval Stepper.Host

/-! ## Histories -/

/-- A move, and the server that makes it. -/
structure Entry where
  server : Server
  move : Move

namespace Entry

/-- The request that is deferred with the move. -/
def deferral? (e : Entry) : Option Deferral := e.server.deferral? e.move

/-- The evaluation with the ticket ends with the move. -/
def Ends (e : Entry) (ticket : Ticket) : Prop :=
  ∃ result, e.server.ended? e.move = some (ticket, result)

end Entry

/-- What a server goes through with some moves. -/
def Server.history (s : Server) : List Move → List Entry
  | [] => []
  | m :: moves => ⟨s, m⟩ :: (s.act m).history moves

/-- The request is deferred with the `n`-th entry. -/
def DeferredAt (h : List Entry) (n : Nat) (δ : Deferral) : Prop :=
  ∃ e, h[n]? = some e ∧ e.deferral? = some δ

/-- The attachment asked for with the `n`-th entry has lasted: no client was
    attached in its place, and its connection was not released. -/
def Standing (h : List Entry) (n : Nat) (a : Attachment) : Prop :=
  DeferredAt h n ⟨a.connection, a.request, .attachment⟩ ∧
    ∀ k e, n < k → h[k]? = some e → ¬ e.move.Forces ∧ e.move ≠ .release a.connection

variable {s t : Server} {m : Move} {h : List Entry} {n k : Nat} {δ : Deferral} {a : Attachment}

/-! ## What a move opens and closes -/

/-- The request that a job answers. -/
def Job.deferral (job : Job) : Deferral :=
  ⟨job.connection, job.request, .evaluation job.evaluation.ticket⟩

/-- The requests for evaluations that have not been answered. -/
def Server.pending (s : Server) : List Deferral := s.jobs.map Job.deferral

/-- What a move makes of the requests for evaluations. -/
inductive Turn (s : Server) (m : Move) (t : Server) : Prop
  | keeps (undeferred : ∀ connection id ticket,
      s.deferral? m ≠ some ⟨connection, id, .evaluation ticket⟩)
    (unended : s.ended? m = none) (pending : t.pending = s.pending)
    (tickets : t.debugger.tickets = s.debugger.tickets)
  | opens {connection id}
    (deferred : s.deferral? m = some ⟨connection, id, .evaluation s.debugger.tickets⟩)
    (unended : s.ended? m = none)
    (pending : t.pending = s.pending ++ [⟨connection, id, .evaluation s.debugger.tickets⟩])
    (tickets : t.debugger.tickets = s.debugger.tickets + 1)
  | closes {i result} {job : Job} (undeferred : s.deferral? m = none)
    (ended : s.ended? m = some (job.evaluation.ticket, result))
    (here : s.pending[i]? = some job.deferral)
    (pending : t.pending = s.pending.eraseIdx i)
    (tickets : t.debugger.tickets = s.debugger.tickets)

/-- An entry is replaced by one that looks the same under `f`. -/
theorem map_set_of_eq {α β : Type} (f : α → β) {l : List α} {i : Nat} {a b : α}
    (here : l[i]? = some a) (same : f b = f a) : (l.set i b).map f = l.map f := by
  obtain ⟨lt, rfl⟩ := List.getElem?_eq_some_iff.1 here
  have inside : i < (l.map f).length := by rwa [List.length_map]
  have unchanged : f l[i] = (l.map f)[i] := (List.getElem_map f).symm
  rw [List.map_set, same, unchanged, List.set_getElem_self]

theorem Server.Proceeds.touches {e : Evaluation} {d d' : Debugger} {stage : Stage}
    (h : Proceeds e d stage d') : Touches e e.stage.held? d d' := by
  rcases h with steps | expires
  · exact steps.touches
  · exact expires.touches

/-- A client whom an evaluation asks was attached when it began to. -/
theorem Server.Proceeds.client? {e : Evaluation} {d d' : Debugger} {stage : Stage}
    (h : Proceeds e d stage d') (asks : stage.client? = some a) :
    e.stage.client? = some a ∨ d.slot = some a := by
  obtain ⟨ticket, session, before⟩ := e
  rcases h with steps | expires
  · cases steps with
    | finish | poll | formStart | arrive | leaves => cases asks
    | goes goes => exact goes.client? asks
  · cases expires
    cases asks

theorem turn_act (s : Server) (m : Move) : Turn s m (s.act m) := by
  cases s.effect_act m with
  | calm undeferred unended _ _ jobs _ tickets =>
    refine .keeps (fun _ _ _ => ?_) unended (congrArg (List.map _) jobs) tickets
    rw [undeferred]
    exact nofun
  | release mover result =>
    subst mover
    exact .keeps (fun _ _ _ => nofun) rfl rfl rfl
  | evaluate mover asked started result =>
    subst mover
    rw [result]
    exact .opens (Server.deferral?_of_evaluate asked started) rfl List.map_append rfl
  | attach mover asked admitted result =>
    subst mover
    rw [result]
    refine .keeps (fun _ _ _ => ?_) rfl rfl rfl
    rcases Server.deferral?_of_attach asked with deferred | ⟨undeferred, -⟩
    · rw [deferred]
      exact nofun
    · rw [undeferred]
      exact nofun
  | @goes i job stage d mover here unended proceeds going result =>
    rw [result]
    refine .keeps (fun _ _ _ => ?_) unended ?_ proceeds.touches.tickets.1
    · rcases mover with rfl | rfl <;> exact nofun
    · exact map_set_of_eq Job.deferral here rfl
  | @ends i job value d mover here ended steps result =>
    rw [result]
    refine .closes ?_ ended (i := i) ?_ ?_ steps.touches.tickets.1
    · rw [mover]
      rfl
    · rw [Server.pending, List.getElem?_map, here]
      rfl
    · exact (List.eraseIdx_map _ _ _).symm

/-! ## Histories that go on -/

variable {e : Entry}

theorem getElem?_snoc {j : Entry} :
    (h ++ [e])[k]? = some j ↔ h[k]? = some j ∨ (k = h.length ∧ j = e) := by
  rw [List.getElem?_append]
  split
  · rename_i lt
    exact ⟨.inl, fun or => or.resolve_right fun ⟨same, _⟩ => Nat.ne_of_lt lt same⟩
  · rename_i ge
    rw [List.getElem?_eq_none (Nat.le_of_not_lt ge), List.getElem?_singleton]
    split
    · rename_i last
      have same : k = h.length := by omega
      simp [same, eq_comm]
    · rename_i beyond
      have different : k ≠ h.length := by omega
      simp [different]

theorem deferredAt_snoc :
    DeferredAt (h ++ [e]) n δ ↔ DeferredAt h n δ ∨ (n = h.length ∧ e.deferral? = some δ) := by
  unfold DeferredAt
  simp only [getElem?_snoc]
  constructor
  · rintro ⟨j, here | ⟨last, rfl⟩, deferred⟩
    · exact .inl ⟨j, here, deferred⟩
    · exact .inr ⟨last, deferred⟩
  · rintro (⟨j, here, deferred⟩ | ⟨last, deferred⟩)
    · exact ⟨j, .inl here, deferred⟩
    · exact ⟨e, .inr ⟨last, rfl⟩, deferred⟩

theorem DeferredAt.lt (deferred : DeferredAt h n δ) : n < h.length := by
  obtain ⟨e, here, -⟩ := deferred
  exact (List.getElem?_eq_some_iff.1 here).1

theorem DeferredAt.unique {δ' : Deferral} (deferred : DeferredAt h n δ)
    (other : DeferredAt h n δ') : δ = δ' := by
  obtain ⟨e, here, deferred⟩ := deferred
  obtain ⟨e', here', deferred'⟩ := other
  rw [here] at here'
  cases here'
  rw [deferred] at deferred'
  exact Option.some_inj.1 deferred'

theorem DeferredAt.take (deferred : DeferredAt h n δ) (lt : n < k) : DeferredAt (h.take k) n δ := by
  obtain ⟨e, here, deferred⟩ := deferred
  exact ⟨e, by rw [List.getElem?_take, if_pos lt, here], deferred⟩

/-- An attachment stands as long as no client is attached by force and its
    connection is not released. -/
theorem standing_snoc :
    Standing (h ++ [e]) n a ↔
      (Standing h n a ∧ ¬ e.move.Forces ∧ e.move ≠ .release a.connection) ∨
        (n = h.length ∧ e.deferral? = some ⟨a.connection, a.request, .attachment⟩) := by
  unfold Standing
  rw [deferredAt_snoc]
  constructor
  · rintro ⟨old | new, lasts⟩
    · refine .inl ⟨⟨old, fun k j lt here => lasts k j lt (getElem?_snoc.2 (.inl here))⟩, ?_⟩
      exact lasts h.length e old.lt (getElem?_snoc.2 (.inr ⟨rfl, rfl⟩))
    · exact .inr new
  · rintro (⟨⟨old, lasts⟩, last⟩ | ⟨rfl, new⟩)
    · refine ⟨.inl old, fun k j lt here => ?_⟩
      rcases getElem?_snoc.1 here with here | ⟨-, rfl⟩
      · exact lasts k j lt here
      · exact last
    · refine ⟨.inr ⟨rfl, new⟩, fun k j lt here => ?_⟩
      have bound := (List.getElem?_eq_some_iff.1 here).1
      rw [List.length_append, List.length_singleton] at bound
      omega

/-! ## Requests for evaluations -/

/-- No two requests for an evaluation have the same ticket, and the next ticket
    is new. -/
structure Numbered (h : List Entry) (tickets : Nat) : Prop where
  fresh : ∀ {n connection id ticket : Nat},
    DeferredAt h n ⟨connection, id, .evaluation ticket⟩ → ticket < tickets
  distinct : ∀ {n n' connection connection' id id' ticket : Nat},
    DeferredAt h n ⟨connection, id, .evaluation ticket⟩ →
      DeferredAt h n' ⟨connection', id', .evaluation ticket⟩ → n = n'

/-- The evaluation with the ticket has ended. -/
def Ended (h : List Entry) (ticket : Ticket) : Prop := ∃ e ∈ h, e.Ends ticket

/-- The requests for evaluations that are pending are those that a history has
    deferred and whose evaluations have not ended. -/
structure Tracked (h : List Entry) (s : Server) : Prop where
  numbered : Numbered h s.debugger.tickets
  nodup : s.pending.Nodup
  deferred : ∀ δ ∈ s.pending, ∃ n, DeferredAt h n δ
  gone : ∀ {ticket : Ticket}, Ended h ticket → ticket < s.debugger.tickets ∧
    ∀ connection id, ⟨connection, id, .evaluation ticket⟩ ∉ s.pending
  there : ∀ {n connection id ticket : Nat}, DeferredAt h n ⟨connection, id, .evaluation ticket⟩ →
    Ended h ticket ∨ ⟨connection, id, .evaluation ticket⟩ ∈ s.pending

theorem deferredAt_nil : ¬ DeferredAt [] n δ := by
  rintro ⟨_, ⟨⟩, _⟩

theorem ended_snoc {ticket : Ticket} :
    Ended (h ++ [e]) ticket ↔ Ended h ticket ∨ e.Ends ticket := by
  simp only [Ended, List.mem_append, List.mem_singleton, or_and_right, exists_or, exists_eq_left]

theorem Entry.not_ends (unended : e.server.ended? e.move = none) (ticket : Ticket) :
    ¬ e.Ends ticket := by
  rintro ⟨result, ended⟩
  rw [unended] at ended
  cases ended

theorem Numbered.nil : Numbered [] 0 where
  fresh deferred := absurd deferred deferredAt_nil
  distinct deferred := absurd deferred deferredAt_nil

theorem Tracked.new (settings : Settings) : Tracked [] (.new settings) where
  numbered := .nil
  nodup := List.nodup_nil
  deferred _ mem := absurd mem List.not_mem_nil
  gone := by
    rintro ticket ⟨e, mem, -⟩
    exact absurd mem List.not_mem_nil
  there deferred := absurd deferred deferredAt_nil

section

variable {tickets : Nat}
  (undeferred : ∀ connection id ticket, e.deferral? ≠ some ⟨connection, id, .evaluation ticket⟩)
include undeferred

theorem deferredAt_snoc_of_undeferred {connection id ticket : Nat} :
    DeferredAt (h ++ [e]) n ⟨connection, id, .evaluation ticket⟩ ↔
      DeferredAt h n ⟨connection, id, .evaluation ticket⟩ := by
  rw [deferredAt_snoc]
  exact or_iff_left fun ⟨_, new⟩ => undeferred _ _ _ new

theorem Numbered.keeps (numbered : Numbered h tickets) : Numbered (h ++ [e]) tickets where
  fresh deferred := numbered.fresh ((deferredAt_snoc_of_undeferred undeferred).1 deferred)
  distinct deferred deferred' :=
    numbered.distinct ((deferredAt_snoc_of_undeferred undeferred).1 deferred)
      ((deferredAt_snoc_of_undeferred undeferred).1 deferred')

end

theorem Numbered.opens {tickets connection id : Nat} (numbered : Numbered h tickets)
    (opened : e.deferral? = some ⟨connection, id, .evaluation tickets⟩) :
    Numbered (h ++ [e]) (tickets + 1) := by
  -- the ticket is new, so no request before has it
  have oldOrNew {n connection' id' ticket : Nat}
      (deferred : DeferredAt (h ++ [e]) n ⟨connection', id', .evaluation ticket⟩) :
      (DeferredAt h n ⟨connection', id', .evaluation ticket⟩ ∧ ticket < tickets) ∨
        (n = h.length ∧ ticket = tickets) := by
    rcases deferredAt_snoc.1 deferred with old | ⟨last, new⟩
    · exact .inl ⟨old, numbered.fresh old⟩
    · cases opened.symm.trans new
      exact .inr ⟨last, rfl⟩
  constructor
  case fresh =>
    intro n connection' id' ticket deferred
    rcases oldOrNew deferred with ⟨-, lt⟩ | ⟨-, rfl⟩ <;> omega
  case distinct =>
    intro n n' connection₁ connection₂ id₁ id₂ ticket deferred deferred'
    rcases oldOrNew deferred with ⟨old, lt⟩ | ⟨last, same⟩ <;>
      rcases oldOrNew deferred' with ⟨old', lt'⟩ | ⟨last', same'⟩
    · exact numbered.distinct old old'
    · omega
    · omega
    · omega

theorem Tracked.keeps (tracked : Tracked h s)
    (undeferred : ∀ connection id ticket,
      s.deferral? m ≠ some ⟨connection, id, .evaluation ticket⟩)
    (unended : s.ended? m = none) (pending : t.pending = s.pending)
    (tickets : t.debugger.tickets = s.debugger.tickets) : Tracked (h ++ [⟨s, m⟩]) t := by
  have same (ticket : Ticket) : Ended (h ++ [⟨s, m⟩]) ticket ↔ Ended h ticket := by
    rw [ended_snoc]
    exact or_iff_left (Entry.not_ends unended ticket)
  constructor
  case numbered =>
    rw [tickets]
    exact tracked.numbered.keeps undeferred
  case nodup =>
    rw [pending]
    exact tracked.nodup
  case deferred =>
    intro δ mem
    rw [pending] at mem
    obtain ⟨n, deferred⟩ := tracked.deferred δ mem
    exact ⟨n, deferredAt_snoc.2 (.inl deferred)⟩
  case gone =>
    intro ticket ended
    rw [pending, tickets]
    exact tracked.gone ((same ticket).1 ended)
  case there =>
    intro n connection id ticket deferred
    rw [pending, same]
    exact tracked.there ((deferredAt_snoc_of_undeferred (e := ⟨s, m⟩) undeferred).1 deferred)

theorem Tracked.opens (tracked : Tracked h s) {connection id : Nat}
    (opened : s.deferral? m = some ⟨connection, id, .evaluation s.debugger.tickets⟩)
    (unended : s.ended? m = none)
    (pending : t.pending = s.pending ++ [⟨connection, id, .evaluation s.debugger.tickets⟩])
    (tickets : t.debugger.tickets = s.debugger.tickets + 1) : Tracked (h ++ [⟨s, m⟩]) t := by
  have same (ticket : Ticket) : Ended (h ++ [⟨s, m⟩]) ticket ↔ Ended h ticket := by
    rw [ended_snoc]
    exact or_iff_left (Entry.not_ends unended ticket)
  have mem_iff {δ : Deferral} : δ ∈ t.pending ↔
      δ ∈ s.pending ∨ δ = ⟨connection, id, .evaluation s.debugger.tickets⟩ := by
    rw [pending, List.mem_append, List.mem_singleton]
  constructor
  case numbered =>
    rw [tickets]
    exact tracked.numbered.opens opened
  case nodup =>
    rw [pending]
    refine List.nodup_append.2 ⟨tracked.nodup, List.nodup_cons.2 ⟨nofun, List.nodup_nil⟩, ?_⟩
    rintro δ mem _ (_ | ⟨_, ⟨⟩⟩) rfl
    obtain ⟨n, deferred⟩ := tracked.deferred _ mem
    exact Nat.lt_irrefl _ (tracked.numbered.fresh deferred)
  case deferred =>
    intro δ mem
    rcases mem_iff.1 mem with mem | rfl
    · obtain ⟨n, deferred⟩ := tracked.deferred δ mem
      exact ⟨n, deferredAt_snoc.2 (.inl deferred)⟩
    · exact ⟨h.length, deferredAt_snoc.2 (.inr ⟨rfl, opened⟩)⟩
  case gone =>
    intro ticket ended
    obtain ⟨lt, gone⟩ := tracked.gone ((same ticket).1 ended)
    rw [tickets]
    refine ⟨Nat.lt_succ_of_lt lt, fun connection' id' mem => ?_⟩
    rcases mem_iff.1 mem with mem | ⟨⟨⟩⟩
    · exact gone connection' id' mem
    · exact Nat.lt_irrefl _ lt
  case there =>
    intro n connection' id' ticket deferred
    rw [same, mem_iff]
    rcases deferredAt_snoc.1 deferred with old | ⟨-, new⟩
    · exact (tracked.there old).imp_right .inl
    · cases opened.symm.trans new
      exact .inr (.inr rfl)

theorem Tracked.closes (tracked : Tracked h s) {i : Nat} {job : Job} {result : Result}
    (undeferred : s.deferral? m = none)
    (ended : s.ended? m = some (job.evaluation.ticket, result))
    (here : s.pending[i]? = some job.deferral) (pending : t.pending = s.pending.eraseIdx i)
    (tickets : t.debugger.tickets = s.debugger.tickets) : Tracked (h ++ [⟨s, m⟩]) t := by
  have silent (connection id : Nat) (ticket : Ticket) :
      Entry.deferral? ⟨s, m⟩ ≠ some ⟨connection, id, .evaluation ticket⟩ := by
    rw [Entry.deferral?, undeferred]
    exact nofun
  have ends_iff (ticket : Ticket) :
      Entry.Ends ⟨s, m⟩ ticket ↔ ticket = job.evaluation.ticket := by
    constructor
    · rintro ⟨_, same⟩
      cases ended.symm.trans same
      rfl
    · rintro rfl
      exact ⟨result, ended⟩
  have mem_iff {δ : Deferral} : δ ∈ t.pending ↔ δ ∈ s.pending ∧ δ ≠ job.deferral := by
    obtain ⟨lt, same⟩ := List.getElem?_eq_some_iff.1 here
    rw [pending, ← List.Nodup.erase_getElem tracked.nodup i lt,
      List.Nodup.mem_erase_iff tracked.nodup, same, and_comm]
  obtain ⟨n, own⟩ := tracked.deferred _ (List.mem_of_getElem? here)
  constructor
  case numbered =>
    rw [tickets]
    exact tracked.numbered.keeps silent
  case nodup =>
    rw [pending]
    exact tracked.nodup.eraseIdx i
  case deferred =>
    intro δ mem
    obtain ⟨n, deferred⟩ := tracked.deferred δ (mem_iff.1 mem).1
    exact ⟨n, deferredAt_snoc.2 (.inl deferred)⟩
  case gone =>
    intro ticket known
    rw [tickets]
    rcases ended_snoc.1 known with before | now
    · obtain ⟨lt, gone⟩ := tracked.gone before
      exact ⟨lt, fun connection id mem => gone connection id (mem_iff.1 mem).1⟩
    · cases (ends_iff ticket).1 now
      refine ⟨tracked.numbered.fresh own, fun connection id mem => ?_⟩
      -- only one request has the ticket
      obtain ⟨mem, different⟩ := mem_iff.1 mem
      obtain ⟨n', other⟩ := tracked.deferred _ mem
      cases tracked.numbered.distinct own other
      exact different (other.unique own)
  case there =>
    intro n connection id ticket deferred
    rw [ended_snoc, ends_iff, mem_iff]
    rcases tracked.there ((deferredAt_snoc_of_undeferred silent).1 deferred) with before | mem
    · exact .inl (.inl before)
    · by_cases same : ticket = job.evaluation.ticket
      · exact .inl (.inr same)
      · refine .inr ⟨mem, ?_⟩
        rintro ⟨⟩
        exact same rfl

theorem Tracked.act (tracked : Tracked h s) (m : Move) : Tracked (h ++ [⟨s, m⟩]) (s.act m) := by
  cases turn_act s m with
  | keeps undeferred unended pending tickets =>
    exact tracked.keeps undeferred unended pending tickets
  | opens opened unended pending tickets => exact tracked.opens opened unended pending tickets
  | closes undeferred ended here pending tickets =>
    exact tracked.closes undeferred ended here pending tickets

/-! ## Requests to attach -/

/-- The client in the slot is the one whose attachment stands. -/
structure Held (h : List Entry) (s : Server) : Prop where
  slot : ∀ a, s.debugger.slot = some a ↔ ∃ n, Standing h n a
  unique : ∀ {n n' : Nat} {a a' : Attachment}, Standing h n a → Standing h n' a' → n = n'

theorem Held.new (settings : Settings) : Held [] (.new settings) where
  slot a := by
    constructor
    · exact nofun
    · rintro ⟨n, deferred, -⟩
      exact absurd deferred deferredAt_nil
  unique standing := absurd standing.1 deferredAt_nil

theorem Held.keeps (held : Held h s)
    (undeferred : ∀ connection id, s.deferral? m ≠ some ⟨connection, id, .attachment⟩)
    (unforced : ¬ m.Forces) (unreleased : ∀ connection, m ≠ .release connection)
    (slot : t.debugger.slot = s.debugger.slot) : Held (h ++ [⟨s, m⟩]) t := by
  have same (n : Nat) (a : Attachment) : Standing (h ++ [⟨s, m⟩]) n a ↔ Standing h n a := by
    rw [standing_snoc]
    constructor
    · rintro (⟨old, -⟩ | ⟨-, new⟩)
      · exact old
      · exact absurd new (undeferred _ _)
    · exact fun old => .inl ⟨old, unforced, unreleased _⟩
  constructor
  case slot =>
    intro a
    simp only [slot, same, held.slot]
  case unique =>
    intro n n' a a' standing standing'
    exact held.unique ((same n a).1 standing) ((same n' a').1 standing')

theorem Held.release (held : Held h s) (connection : Nat) :
    Held (h ++ [⟨s, .release connection⟩]) (s.release connection) := by
  have same (n : Nat) (a : Attachment) :
      Standing (h ++ [⟨s, .release connection⟩]) n a ↔
        Standing h n a ∧ a.connection ≠ connection := by
    rw [standing_snoc]
    constructor
    · rintro (⟨old, -, lasts⟩ | ⟨-, new⟩)
      · exact ⟨old, fun same => lasts (congrArg _ same.symm)⟩
      · cases new
    · rintro ⟨old, different⟩
      exact .inl ⟨old, nofun, fun same => different (Move.release.inj same).symm⟩
  constructor
  case slot =>
    intro a
    calc (s.release connection).debugger.slot = some a
        ↔ s.debugger.slot = some a ∧ a.connection ≠ connection :=
          AttachmentSlot.detach_eq_some_iff
      _ ↔ ∃ n, Standing (h ++ [⟨s, .release connection⟩]) n a := by
          simp only [held.slot, same, exists_and_right]
  case unique =>
    intro n n' a a' standing standing'
    exact held.unique ((same n a).1 standing).1 ((same n' a').1 standing').1

/-- A client that is admitted is attached; no other one is. -/
theorem Held.attach (held : Held h s) {a : Attachment} {text : String} {threads : Threads}
    {force : Bool} (asked : operation? text = some (a.request, .attach force))
    (admitted : s.debugger.slot = none ∨ force = true) :
    Held (h ++ [⟨s, .line a.connection text threads⟩])
      { s with debugger := (s.debugger.attach a force).2 } := by
  obtain ⟨unkept, slot⟩ := Debugger.attach_of_admitted a admitted
  have deferred : s.deferral? (.line a.connection text threads) =
      some ⟨a.connection, a.request, .attachment⟩ := by
    rcases Server.deferral?_of_attach asked with deferred | ⟨-, current, kept⟩
    · exact deferred
    · exact absurd kept (unkept current)
  have same (n : Nat) (b : Attachment) :
      Standing (h ++ [⟨s, .line a.connection text threads⟩]) n b ↔ n = h.length ∧ b = a := by
    rw [standing_snoc]
    constructor
    · rintro (⟨old, unforced, -⟩ | ⟨last, new⟩)
      · have attached := (held.slot b).2 ⟨n, old⟩
        cases admitted.resolve_left (by rw [attached]; exact nofun)
        exact absurd (Server.forces_line_iff.2 ⟨_, asked⟩) unforced
      · obtain ⟨connection, request⟩ := b
        cases deferred.symm.trans new
        exact ⟨last, rfl⟩
    · rintro ⟨rfl, rfl⟩
      exact .inr ⟨rfl, deferred⟩
  constructor
  case slot =>
    intro b
    rw [slot]
    constructor
    · rintro ⟨⟩
      exact ⟨h.length, (same _ _).2 ⟨rfl, rfl⟩⟩
    · rintro ⟨n, standing⟩
      rw [((same n b).1 standing).2]
  case unique =>
    intro n n' b b' standing standing'
    rw [((same n b).1 standing).1, ((same n' b').1 standing').1]

theorem Held.act (held : Held h s) (m : Move) : Held (h ++ [⟨s, m⟩]) (s.act m) := by
  cases s.effect_act m with
  | calm undeferred _ unforced unreleased _ slot =>
    refine held.keeps (fun _ _ => ?_) unforced unreleased slot
    rw [undeferred]
    exact nofun
  | release mover result =>
    subst mover
    exact held.release _
  | evaluate mover asked started result =>
    subst mover
    rw [result]
    refine held.keeps (fun _ _ => ?_) ?_ (fun _ => nofun) rfl
    · rw [Server.deferral?_of_evaluate asked started]
      exact nofun
    · rw [Server.forces_line_iff, asked]
      exact nofun
  | attach mover asked admitted result =>
    subst mover
    rw [result]
    exact held.attach asked admitted
  | goes mover here unended proceeds going result =>
    rw [result]
    have slot := Service.slot_of_touches proceeds.touches
    rcases mover with rfl | rfl <;> exact held.keeps (fun _ _ => nofun) nofun (fun _ => nofun) slot
  | ends mover here ended steps result =>
    subst mover
    rw [result]
    have slot := Service.slot_of_touches steps.touches
    exact held.keeps (fun _ _ => nofun) nofun (fun _ => nofun) slot

/-! ## Clients that are prompted -/

/-- The clients whom evaluations ask have asked to be attached. -/
def Known (h : List Entry) (s : Server) : Prop :=
  ∀ job ∈ s.jobs, ∀ a, job.evaluation.stage.client? = some a →
    ∃ n, DeferredAt h n ⟨a.connection, a.request, .attachment⟩

theorem Known.new (settings : Settings) : Known [] (.new settings) :=
  fun _ mem => absurd mem List.not_mem_nil

theorem Known.act (known : Known h s) (held : Held h s) (m : Move) :
    Known (h ++ [⟨s, m⟩]) (s.act m) := by
  intro job mem a asks
  have old (mem : job ∈ s.jobs) :
      ∃ n, DeferredAt (h ++ [⟨s, m⟩]) n ⟨a.connection, a.request, .attachment⟩ := by
    obtain ⟨n, deferred⟩ := known job mem a asks
    exact ⟨n, deferredAt_snoc.2 (.inl deferred)⟩
  cases s.effect_act m with
  | calm _ _ _ _ jobs =>
    rw [jobs] at mem
    exact old mem
  | release _ result | attach _ _ _ result =>
    rw [result] at mem
    exact old mem
  | evaluate _ _ _ result =>
    rw [result] at mem
    rcases List.mem_append.1 mem with mem | mem
    · exact old mem
    · rw [List.mem_singleton.1 mem] at asks
      cases asks
  | goes mover here _ proceeds _ result =>
    rw [result] at mem
    rcases List.mem_or_eq_of_mem_set mem with mem | rfl
    · exact old mem
    · rcases proceeds.client? asks with asks | attached
      · obtain ⟨n, deferred⟩ := known _ (List.mem_of_getElem? here) a asks
        exact ⟨n, deferredAt_snoc.2 (.inl deferred)⟩
      · obtain ⟨n, deferred, -⟩ := (held.slot a).1 attached
        exact ⟨n, deferredAt_snoc.2 (.inl deferred)⟩
  | ends _ _ _ _ result =>
    rw [result] at mem
    exact old (List.mem_of_mem_eraseIdx mem)

/-! ## All books -/

/-- What a history and the server it has led to have to do with one another. -/
structure Books (h : List Entry) (s : Server) : Prop where
  tracked : Tracked h s
  held : Held h s
  known : Known h s

theorem Books.new (settings : Settings) : Books [] (.new settings) :=
  ⟨.new settings, .new settings, .new settings⟩

theorem Books.act (books : Books h s) (m : Move) : Books (h ++ [⟨s, m⟩]) (s.act m) :=
  ⟨books.tracked.act m, books.held.act m, books.known.act books.held m⟩

end Stepper.Control
