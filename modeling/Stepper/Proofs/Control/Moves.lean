/-
  The server at work.

  A `Move` is what a client, a connection or an evaluation does next;
  evaluations are moved step by step, so that others may act between any two
  of their steps.  `effect_act` lists what a move does: it defers a request,
  ends an attachment, moves an evaluation or ends and answers it, or does none
  of these.

  A server that lets all evaluations go on after every line is a case of this:
  `Server.rest` is made of such steps (`Answered.exists_run_rest`).
-/
import Stepper.Control.Server
import Stepper.Proofs.Debug.Attachment
import Stepper.Proofs.Service.Tickets

namespace Stepper.Debug

variable {e e' : Evaluation} {d d' : Debugger}

theorem Evaluation.result?_eq_some_iff {result : Stepper.Eval.Result} :
    e.result? = some result ↔ e.stage = .ended result := by
  unfold result?
  split
  · rename_i stage
    rw [stage, Option.some_inj, Stage.ended.injEq]
  · rename_i going
    exact ⟨nofun, fun ended => absurd ended (going result)⟩

theorem Expires.goes_on (h : Expires d e.stage e'.stage d') : e'.result? = none := by
  unfold Evaluation.result?
  generalize e.stage = before at h
  generalize e'.stage = after at h ⊢
  cases h
  rfl

theorem Debugger.attach_of_free (a : Attachment) (force : Bool) (free : d.slot = none) :
    d.attach a force = (.attached, { d with slot := some a }) := by
  obtain ⟨settings, sessions, channel, slot, net, tripped, tickets⟩ := d
  cases free
  rfl

theorem Debugger.attach_of_taken (a : Attachment) {previous : Attachment}
    (attached : d.slot = some previous) :
    d.attach a true = (.replaced previous.request,
      { d with slot := some a, net := (previous.push ["done"] [] d.net).2 }) := by
  obtain ⟨settings, sessions, channel, slot, net, tripped, tickets⟩ := d
  cases attached
  rfl

/-- Who finds no other client attached, or asks with force, is attached. -/
theorem Debugger.attach_of_admitted (a : Attachment) {force : Bool}
    (admitted : d.slot = none ∨ force = true) :
    (∀ current, (d.attach a force).1 ≠ .kept current) ∧ (d.attach a force).2.slot = some a := by
  cases attached : d.slot with
  | none =>
    rw [attach_of_free a force attached]
    exact ⟨nofun, rfl⟩
  | some previous =>
    cases admitted.resolve_left (by rw [attached]; exact nofun)
    rw [attach_of_taken a attached]
    exact ⟨nofun, rfl⟩

/-- Who asks without force is not attached when somebody else is. -/
theorem Debugger.attach_of_kept (a : Attachment) {previous : Attachment}
    (attached : d.slot = some previous) : d.attach a false = (.kept previous.request, d) := by
  obtain ⟨settings, sessions, channel, slot, net, tripped, tickets⟩ := d
  cases attached
  rfl

end Stepper.Debug

namespace Stepper.Control

open Stepper.Debug Stepper.Eval Stepper.Host

/-- What can happen. -/
inductive Move where
  /-- A line arrives; `threads` is what the host does when a thread is asked
      for. -/
  | line (connection : Nat) (text : String) (threads : Threads := .granted)
  | connect
  | release (connection : Nat)
  /-- A connection fails from now on, or works again. -/
  | setRefusing (connection : Nat) (on : Bool)
  /-- The `i`-th evaluation that has not been answered makes its next step. -/
  | advance (i : Nat)
  /-- The time in which it awaits a reply is over. -/
  | expire (i : Nat)

/-- Whether a client or a connection does it. -/
def Move.outside : Move → Bool
  | .advance _ | .expire _ => false
  | _ => true

namespace Server

/-- Notes the step of an evaluation; with its last step it is answered. -/
def note (s : Server) (i : Nat) (job : Job) : Option (Evaluation × Debugger) → Server
  | none => s
  | some (e, d) =>
    match e.result? with
    | none => { s with debugger := d, jobs := s.jobs.set i { job with evaluation := e } }
    | some result =>
      let response := answerTo job.request (.ofResult result)
      { s with
        debugger := d.mapNet (·.offer job.connection response.message)
        jobs := s.jobs.eraseIdx i }

/-- Moves an evaluation. -/
def move (s : Server) (i : Nat) (step? : Evaluation → Debugger → Option (Evaluation × Debugger)) :
    Server :=
  match s.jobs[i]? with
  | none => s
  | some job => s.note i job (step? job.evaluation s.debugger)

/-- Does what happens next. -/
def act (s : Server) : Move → Server
  | .line connection text threads => (s.take threads connection text).2
  | .connect => s.connect.2
  | .release connection => s.release connection
  | .setRefusing connection on =>
    { s with debugger := s.debugger.mapNet (·.setRefusing connection on) }
  | .advance i => s.move i Evaluation.step?
  | .expire i => s.move i Evaluation.timeOut?

/-- Does some things, one after another. -/
def run (s : Server) (moves : List Move) : Server := moves.foldl act s

/-- Does some things; after each, every evaluation runs until it has ended or
    waits. -/
def serve (s : Server) (moves : List Move) : Server := moves.foldl (fun s m => (s.act m).rest) s

theorem run_append (s : Server) (moves more : List Move) :
    s.run (moves ++ more) = (s.run moves).run more :=
  List.foldl_append

end Server

/-! ## Requests that are answered later -/

/-- What a request waits for that is not answered at once. -/
inductive Waiting where
  /-- The end of the evaluation with the ticket. -/
  | evaluation (ticket : Ticket)
  /-- Another client that attaches. -/
  | attachment
  deriving DecidableEq

/-- A request that is not answered at once. -/
structure Deferral where
  connection : Nat
  id : Nat
  waiting : Waiting
  deriving DecidableEq

/-- The id that the response to a line bears. -/
def idOf (text : String) : Nat :=
  match Request.ofLine text with
  | .ok request => request.id
  | .error _ => 0

/-- The id and the operation of a line that is a valid request. -/
def operation? (text : String) : Option (Nat × Operation) :=
  match Request.ofLine text with
  | .ok request =>
    match Operation.ofRequest? request with
    | some (.ok operation) => some (request.id, operation)
    | _ => none
  | .error _ => none

/-- A client asks to be attached in place of any other. -/
def Move.Forces (m : Move) : Prop :=
  ∃ connection text threads id,
    m = .line connection text threads ∧ operation? text = some (id, .attach true)

namespace Server

/-- The request that a move defers: an evaluation that starts, or an attachment
    that is new or replaces another one. -/
def deferral? (s : Server) : Move → Option Deferral
  | .line connection text threads =>
    match operation? text with
    | some (id, .evaluate session _) =>
      if threads.spawn (threadName session) = .started then
        some ⟨connection, id, .evaluation s.debugger.tickets⟩
      else none
    | some (id, .attach force) =>
      match (s.debugger.attach ⟨connection, id⟩ force).1 with
      | .attached | .replaced _ => some ⟨connection, id, .attachment⟩
      | .kept _ => none
    | _ => none
  | _ => none

/-- The evaluation that ends with a move, and its result. -/
def ended? (s : Server) : Move → Option (Ticket × Result)
  | .advance i => s.jobs[i]?.bind fun job => (job.evaluation.step? s.debugger).bind fun (e, _) =>
    e.result?.map (job.evaluation.ticket, ·)
  | _ => none

/-! ## What a move does -/

/-- A step of an evaluation, or the end of its wait for a reply. -/
def Proceeds (e : Evaluation) (d : Debugger) (stage : Stage) (d' : Debugger) : Prop :=
  Steps e d e.stage stage d' ∨ Expires d e.stage stage d'

/-- What a move makes of the server. -/
inductive Effect (s : Server) (m : Move) (t : Server) : Prop
  | calm (undeferred : s.deferral? m = none) (unended : s.ended? m = none) (unforced : ¬ m.Forces)
    (unreleased : ∀ connection, m ≠ .release connection) (jobs : t.jobs = s.jobs)
    (slot : t.debugger.slot = s.debugger.slot) (tickets : t.debugger.tickets = s.debugger.tickets)
    (offered : t.debugger.net.offered = s.debugger.net.offered)
    (outside : t.debugger = s.debugger ∨ ∃ a, Service.Outside s.debugger a t.debugger)
  | release {connection} (mover : m = .release connection) (result : t = s.release connection)
  | evaluate {connection text threads id session code} (mover : m = .line connection text threads)
    (asked : operation? text = some (id, .evaluate session code))
    (started : threads.spawn (threadName session) = .started)
    (result : t = s.evaluate connection id session code)
  | attach {a : Attachment} {text threads force} (mover : m = .line a.connection text threads)
    (asked : operation? text = some (a.request, .attach force))
    (admitted : s.debugger.slot = none ∨ force = true)
    (result : t = { s with debugger := (s.debugger.attach a force).2 })
  | goes {i job stage d} (mover : m = .advance i ∨ m = .expire i) (here : s.jobs[i]? = some job)
    (unended : s.ended? m = none) (proceeds : Proceeds job.evaluation s.debugger stage d)
    (going : Evaluation.result? { job.evaluation with stage } = none)
    (result : t = { s with
      debugger := d
      jobs := s.jobs.set i { job with evaluation := { job.evaluation with stage } } })
  | ends {i job value d} (mover : m = .advance i) (here : s.jobs[i]? = some job)
    (ended : s.ended? m = some (job.evaluation.ticket, value))
    (steps : Steps job.evaluation s.debugger job.evaluation.stage (.ended value) d)
    (result : t = { s with
      debugger := d.mapNet (·.offer job.connection (answerTo job.request (.ofResult value)).message)
      jobs := s.jobs.eraseIdx i })

variable {s : Server} {connection : Nat} {text : String} {threads : Threads}

theorem forces_line_iff :
    (Move.line connection text threads).Forces ↔ ∃ id, operation? text = some (id, .attach true) := by
  constructor
  · rintro ⟨_, _, _, id, ⟨⟩, asked⟩
    exact ⟨id, asked⟩
  · rintro ⟨id, asked⟩
    exact ⟨connection, text, threads, id, rfl, asked⟩

/-- A line without an operation is rejected. -/
theorem take_of_operation?_eq_none (h : operation? text = none) :
    ∃ reason, s.take threads connection text = (.respond (.rejected (idOf text) reason), s) := by
  unfold operation? at h
  unfold take idOf
  cases read : Request.ofLine text with
  | error fault => exact ⟨_, rfl⟩
  | ok request =>
    rw [read] at h
    cases op : Operation.ofRequest? request with
    | none =>
      simp only [op]
      exact ⟨_, rfl⟩
    | some decoded =>
      cases decoded with
      | error fault =>
        simp only [op]
        exact ⟨_, rfl⟩
      | ok operation =>
        simp only [op] at h
        cases h

/-- An operation is carried out under the id of its line. -/
theorem take_of_operation?_eq_some {id : Nat} {operation : Operation}
    (h : operation? text = some (id, operation)) :
    s.take threads connection text = s.perform threads connection id operation ∧
      idOf text = id := by
  unfold operation? at h
  split at h
  · rename_i request read
    split at h
    · rename_i decoded op
      cases h
      simp only [take, idOf, read, op, and_self]
    · cases h
  · cases h

/-- A request for an evaluation that starts is deferred until the evaluation
    ends. -/
theorem deferral?_of_evaluate {id : Nat} {session code : String}
    (asked : operation? text = some (id, .evaluate session code))
    (started : threads.spawn (threadName session) = .started) :
    s.deferral? (.line connection text threads) =
      some ⟨connection, id, .evaluation s.debugger.tickets⟩ := by
  simp only [deferral?, asked, started, if_true]

/-- An evaluation that does not start leaves everything as it is. -/
theorem perform_of_not_started {id : Nat} {session code : String}
    (unstarted : threads.spawn (threadName session) ≠ .started) :
    (s.perform threads connection id (.evaluate session code)).2 = s := by
  simp only [perform]
  split
  · rename_i started
    exact absurd started unstarted
  · rfl
  · rfl

/-- A request to be attached is deferred unless another client is kept. -/
theorem deferral?_of_attach {id : Nat} {force : Bool}
    (asked : operation? text = some (id, .attach force)) :
    s.deferral? (.line connection text threads) = some ⟨connection, id, .attachment⟩ ∨
      s.deferral? (.line connection text threads) = none ∧
        ∃ current, (s.debugger.attach ⟨connection, id⟩ force).1 = .kept current := by
  simp only [deferral?, asked]
  split
  · exact .inl rfl
  · exact .inl rfl
  · rename_i kept
    exact .inr ⟨rfl, _, kept⟩

/-- An operation that does not concern the requests that are open. -/
theorem effect_of_calm {id : Nat} {operation : Operation}
    (asked : operation? text = some (id, operation))
    (undeferred : s.deferral? (.line connection text threads) = none)
    (unforced : operation ≠ .attach true)
    (jobs : (s.perform threads connection id operation).2.jobs = s.jobs)
    (slot : (s.perform threads connection id operation).2.debugger.slot = s.debugger.slot)
    (tickets : (s.perform threads connection id operation).2.debugger.tickets = s.debugger.tickets)
    (net : (s.perform threads connection id operation).2.debugger.net = s.debugger.net)
    (outside : (s.perform threads connection id operation).2.debugger = s.debugger ∨
      ∃ a, Service.Outside s.debugger a (s.perform threads connection id operation).2.debugger) :
    Effect s (.line connection text threads) (s.act (.line connection text threads)) := by
  have unforced : ¬ (Move.line connection text threads).Forces := by
    rw [forces_line_iff, asked]
    rintro ⟨_, same⟩
    cases same
    exact unforced rfl
  rw [act, (take_of_operation?_eq_some asked).1]
  exact .calm undeferred rfl unforced (fun _ => nofun) jobs slot tickets (congrArg _ net) outside

/-- A line that changes nothing. -/
theorem effect_of_same (same : s.act (.line connection text threads) = s)
    (undeferred : s.deferral? (.line connection text threads) = none)
    (unforced : ¬ (Move.line connection text threads).Forces) :
    Effect s (.line connection text threads) (s.act (.line connection text threads)) := by
  rw [same]
  exact .calm undeferred rfl unforced (fun _ => nofun) rfl rfl rfl rfl (.inl rfl)

theorem effect_line (s : Server) (connection : Nat) (text : String) (threads : Threads) :
    Effect s (.line connection text threads) (s.act (.line connection text threads)) := by
  cases asked : operation? text with
  | none =>
    have rejected : ∃ reason,
        s.take threads connection text = (.respond (.rejected (idOf text) reason), s) :=
      take_of_operation?_eq_none asked
    obtain ⟨reason, taken⟩ := rejected
    refine effect_of_same (by rw [act, taken]) (by simp only [deferral?, asked]) ?_
    rw [forces_line_iff, asked]
    exact nofun
  | some known =>
    obtain ⟨id, operation⟩ := known
    cases operation with
    | evaluate session code =>
      by_cases started : threads.spawn (threadName session) = .started
      · refine .evaluate rfl asked started ?_
        rw [act, (take_of_operation?_eq_some asked).1, perform, started]
      · refine effect_of_same ?_ (by simp only [deferral?, asked, started, if_false]) ?_
        · rw [act, (take_of_operation?_eq_some asked).1, perform_of_not_started started]
        · rw [forces_line_iff, asked]
          exact nofun
    | attach force =>
      cases attached : s.debugger.slot with
      | none =>
        rw [act, (take_of_operation?_eq_some asked).1]
        exact .attach (a := ⟨connection, id⟩) rfl asked (.inl attached) rfl
      | some previous =>
        cases force with
        | true =>
          rw [act, (take_of_operation?_eq_some asked).1]
          exact .attach (a := ⟨connection, id⟩) rfl asked (.inr rfl) rfl
        | false =>
          have kept := Debugger.attach_of_kept ⟨connection, id⟩ attached
          refine effect_of_calm asked ?_ nofun ?_ ?_ ?_ ?_ (.inl ?_) <;>
            simp only [deferral?, asked, kept, perform]
    | reply key input =>
      exact effect_of_calm asked (by simp only [deferral?, asked]) nofun rfl rfl rfl rfl
        (.inr ⟨_, .submit⟩)
    | sessions =>
      exact effect_of_calm asked (by simp only [deferral?, asked]) nofun rfl rfl rfl rfl (.inl rfl)
    | close session =>
      have untouched : (s.debugger.close session).2.slot = s.debugger.slot ∧
          (s.debugger.close session).2.tickets = s.debugger.tickets ∧
          (s.debugger.close session).2.net = s.debugger.net := by
        unfold Debugger.close
        split <;> exact ⟨rfl, rfl, rfl⟩
      obtain ⟨slot, tickets, net⟩ := untouched
      exact effect_of_calm asked (by simp only [deferral?, asked]) nofun rfl slot tickets net
        (.inr ⟨_, .close⟩)

/-- A move that is not possible. -/
theorem effect_idle {m : Move} (mover : ∃ i, m = .advance i ∨ m = .expire i)
    (unended : s.ended? m = none) : Effect s m s := by
  obtain ⟨i, rfl | rfl⟩ := mover <;>
    exact .calm rfl unended nofun (fun _ => nofun) rfl rfl rfl rfl (.inl rfl)

theorem move_of_here {i : Nat} {job : Job} (here : s.jobs[i]? = some job)
    (step? : Evaluation → Debugger → Option (Evaluation × Debugger)) :
    s.move i step? = s.note i job (step? job.evaluation s.debugger) := by
  rw [move, here]

theorem move_of_gone {i : Nat} (gone : s.jobs[i]? = none)
    (step? : Evaluation → Debugger → Option (Evaluation × Debugger)) : s.move i step? = s := by
  rw [move, gone]

theorem effect_advance (s : Server) (i : Nat) : Effect s (.advance i) (s.act (.advance i)) := by
  cases here : s.jobs[i]? with
  | none =>
    rw [act, move_of_gone here]
    exact effect_idle ⟨i, .inl rfl⟩ (by rw [ended?, here, Option.bind_none])
  | some job =>
    rw [act, move_of_here here]
    cases stepped : job.evaluation.step? s.debugger with
    | none =>
      rw [note]
      exact effect_idle ⟨i, .inl rfl⟩
        (by rw [ended?, here, Option.bind_some, stepped, Option.bind_none])
    | some after =>
      obtain ⟨e, d⟩ := after
      obtain ⟨steps, same⟩ := steps_of_step? stepped
      have ended : s.ended? (.advance i) = e.result?.map (job.evaluation.ticket, ·) := by
        rw [ended?, here, Option.bind_some, stepped, Option.bind_some]
      cases result : e.result? with
      | none =>
        rw [result, Option.map_none] at ended
        simp only [note, result]
        exact .goes (.inl rfl) here ended (.inl steps) (same ▸ result) (by rw [← same])
      | some value =>
        rw [result, Option.map_some] at ended
        rw [Evaluation.result?_eq_some_iff.1 result] at steps
        simp only [note, result]
        exact .ends rfl here ended steps rfl

theorem effect_expire (s : Server) (i : Nat) : Effect s (.expire i) (s.act (.expire i)) := by
  cases here : s.jobs[i]? with
  | none =>
    rw [act, move_of_gone here]
    exact effect_idle ⟨i, .inr rfl⟩ rfl
  | some job =>
    rw [act, move_of_here here]
    cases late : job.evaluation.timeOut? s.debugger with
    | none => exact effect_idle ⟨i, .inr rfl⟩ rfl
    | some after =>
      obtain ⟨e, d⟩ := after
      obtain ⟨expires, same⟩ := expires_of_timeOut? late
      simp only [note, expires.goes_on]
      exact .goes (.inr rfl) here rfl (.inr expires) (same ▸ expires.goes_on) (by rw [← same])

/-- Whatever a move does is listed in `Effect`. -/
theorem effect_act (s : Server) (m : Move) : Effect s m (s.act m) := by
  cases m with
  | line connection text threads => exact effect_line s connection text threads
  | connect => exact .calm rfl rfl nofun (fun _ => nofun) rfl rfl rfl rfl (.inl rfl)
  | setRefusing =>
    exact .calm rfl rfl nofun (fun _ => nofun) rfl rfl rfl rfl (.inr ⟨_, .setRefusing⟩)
  | release connection => exact .release rfl rfl
  | advance i => exact effect_advance s i
  | expire i => exact effect_expire s i

/-! ## Evaluations left to themselves -/

/-- No evaluation that has ended is left without an answer. -/
def Answered (s : Server) : Prop := ∀ job ∈ s.jobs, job.evaluation.result? = none

theorem Answered.new (settings : Settings) : (new settings).Answered :=
  fun _ mem => absurd mem List.not_mem_nil

theorem Answered.act (h : s.Answered) (m : Move) : (s.act m).Answered := by
  intro job mem
  cases effect_act s m with
  | calm _ _ _ _ jobs =>
    rw [jobs] at mem
    exact h job mem
  | release _ result | attach _ _ _ result =>
    rw [result] at mem
    exact h job mem
  | evaluate _ _ _ result =>
    rw [result] at mem
    rcases List.mem_append.1 mem with mem | mem
    · exact h job mem
    · rw [List.mem_singleton.1 mem]
      rfl
  | goes _ _ _ _ going result =>
    rw [result] at mem
    rcases List.mem_or_eq_of_mem_set mem with mem | rfl
    · exact h job mem
    · exact going
  | ends _ _ _ _ result =>
    rw [result] at mem
    exact h job (List.mem_of_mem_eraseIdx mem)

theorem Answered.run (h : s.Answered) (moves : List Move) : (s.run moves).Answered := by
  induction moves generalizing s with
  | nil => exact h
  | cons m moves ih => exact ih (h.act m)

/-- What is left of a job when its evaluation has come so far. -/
def conclude (job : Job) : Evaluation × Debugger → Option Job × Debugger
  | (e, d) =>
    match e.result? with
    | none => (some { job with evaluation := e }, d)
    | some result =>
      let response := answerTo job.request (.ofResult result)
      (none, d.mapNet (·.offer job.connection response.message))

/-- The server in which a job stands, if it is left, between others. -/
def around (before after : List Job) (connections : Nat) : Option Job × Debugger → Server
  | (job?, d) => ⟨d, before ++ job?.toList ++ after, connections⟩

variable {before after : List Job} {connections : Nat} {job : Job} {e : Evaluation} {d : Debugger}

theorem act_around {e' : Evaluation} {d' : Debugger} (stepped : e.step? d = some (e', d')) :
    (around before after connections (conclude job (e, d))).act (.advance before.length) =
      around before after connections (conclude job (e', d')) := by
  have going : e.result? = none := (steps_of_step? stepped).1.result?
  have here : (before ++ { job with evaluation := e } :: after)[before.length]? =
      some { job with evaluation := e } := by
    rw [List.getElem?_append_right (Nat.le_refl _), Nat.sub_self, List.getElem?_cons_zero]
  simp only [conclude, going, around, Option.toList, List.append_assoc, List.singleton_append]
  rw [act, move_of_here here, stepped, note]
  cases result : e'.result? with
  | none => simp [List.set_append_right]
  | some value => simp [List.eraseIdx_append_of_length_le]

theorem exists_run_around_settle (e : Evaluation) (d : Debugger) :
    ∃ n, (around before after connections (conclude job (e, d))).run
        (List.replicate n (.advance before.length)) =
      around before after connections (conclude job (e.settle d)) := by
  induction e, d using Evaluation.settle.induct with
  | case1 e d free stuck =>
    refine ⟨0, ?_⟩
    rw [Evaluation.settle_of_stuck free stuck]
    rfl
  | case2 e d free e' d' stepped nearer ih =>
    obtain ⟨n, same⟩ := ih
    refine ⟨n + 1, ?_⟩
    rw [Evaluation.settle_of_step? free stepped, List.replicate_succ, ← same, ← act_around stepped]
    rfl
  | case3 e d prompt =>
    refine ⟨0, ?_⟩
    rw [Evaluation.settle_of_prompt prompt]
    rfl

/-- An evaluation is let go on by steps of its own. -/
theorem exists_run_around_advance (unended : job.evaluation.result? = none) (d : Debugger) :
    ∃ n, run ⟨d, before ++ job :: after, connections⟩ (List.replicate n (.advance before.length)) =
      around before after connections (advance d job) := by
  have start : around before after connections (conclude job (job.evaluation, d)) =
      ⟨d, before ++ job :: after, connections⟩ := by
    simp only [conclude, unended, around, Option.toList, List.append_assoc, List.singleton_append]
  have finish : advance d job = conclude job (job.evaluation.proceed d) := rfl
  rw [finish, Evaluation.proceed, ← start]
  cases stepped : job.evaluation.step? d with
  | none => exact ⟨0, rfl⟩
  | some next =>
    obtain ⟨e', d'⟩ := next
    obtain ⟨n, same⟩ := exists_run_around_settle e' d'
    refine ⟨n + 1, ?_⟩
    rw [List.replicate_succ, ← same, ← act_around stepped]
    rfl

theorem exists_run_rest {jobs : List Job} (unended : ∀ job ∈ jobs, job.evaluation.result? = none)
    (before : List Job) (d : Debugger) :
    ∃ moves : List Move, (∀ m ∈ moves, m.outside = false) ∧
      run ⟨d, before ++ jobs, connections⟩ moves =
        let (d, jobs) := jobs.foldl (fun (d, jobs) job =>
          let (job?, d) := advance d job
          (d, jobs ++ job?.toList)) (d, before)
        ⟨d, jobs, connections⟩ := by
  induction jobs generalizing before d with
  | nil => exact ⟨[], nofun, by rw [List.append_nil]; rfl⟩
  | cons job jobs ih =>
    have advanced : ∃ n, run ⟨d, before ++ job :: jobs, connections⟩
        (List.replicate n (.advance before.length)) =
          around before jobs connections (advance d job) :=
      exists_run_around_advance (unended job (.head _)) d
    obtain ⟨n, own⟩ := advanced
    obtain ⟨moves, inner, others⟩ := ih (fun job mem => unended job (.tail _ mem))
      (before ++ (advance d job).1.toList) (advance d job).2
    refine ⟨List.replicate n (.advance before.length) ++ moves, fun m mem => ?_, ?_⟩
    · rcases List.mem_append.1 mem with mem | mem
      · rw [List.eq_of_mem_replicate mem]
        rfl
      · exact inner m mem
    · rw [run_append, own, List.foldl_cons]
      exact others

/-- To let all evaluations go on is to let them make steps. -/
theorem Answered.exists_run_rest (h : s.Answered) :
    ∃ moves : List Move, (∀ m ∈ moves, m.outside = false) ∧ s.run moves = s.rest :=
  Server.exists_run_rest h [] s.debugger

end Server

end Stepper.Control
