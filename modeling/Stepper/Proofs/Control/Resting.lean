/-
  A server at rest.

  After every move the server lets its evaluations go on.  Whatever has
  happened, each of them has then ended and been answered, or waits for a
  client or for the reply to a prompt (`waits_serve`): none could go on, and
  none has been cancelled.

  An evaluation that `Settles` comes to wait, or to its end, when it is left to
  itself (`stuck_proceed`).  What the others do meanwhile leaves alone what it
  waits for (`Keeps`), because no two have a ticket or a key in common
  (`Orderly`).
-/
import Stepper.Proofs.Control.Books
import Stepper.Proofs.Service.Keys

namespace Stepper.Debug

open Stepper.Eval

variable {e o : Evaluation} {d d' : Debugger} {hit : Hit} {stage : Stage}

/-! ## One evaluation -/

/-- The evaluation can do nothing but wait: for a client, or for the reply to
    its prompt. -/
def Evaluation.Waits (e : Evaluation) (d : Debugger) : Prop :=
  ∃ site value next pause,
    e.stage = .paused site value next pause ∧ Stands (e.hit site value) d pause

theorem Evaluation.waits_iff : e.Waits d ↔ e.step? d = none ∧ e.result? = none := by
  obtain ⟨ticket, session, stage⟩ := e
  constructor
  · rintro ⟨site, value, next, pause, rfl, stands⟩
    exact ⟨by simp only [step?, stands.move, afterMove], rfl⟩
  · rintro ⟨stuck, going⟩
    cases stage with
    | running rest => cases rest <;> cases stuck
    | ended result => cases going
    | paused site value next pause =>
      refine ⟨site, value, next, pause, rfl, stands_of_move ?_⟩
      simp only [step?] at stuck
      generalize pause.move ⟨ticket, session, site, value⟩ d = moved at stuck ⊢
      cases moved with
      | blocked => rfl
      | goTo | resume => cases stuck

/-- If the evaluation has been cancelled, it notices before it prompts anybody;
    and there is no reply yet to a prompt that is still to be sent. -/
def Pause.Settles (ticket : Ticket) (d : Debugger) : Pause → Prop
  | .arrived | .unattached | .refused .. => True
  | .admitted | .unskipped | .asking .. | .answered .. => d.isTripped ticket = false
  | .sending _ _ key => d.isTripped ticket = false ∧ d.accepts key = true
  | .awaiting _ _ key => d.isTripped ticket = true → d.reply? key = none

/-- The evaluation comes to wait or to its end when it is left to itself. -/
def Evaluation.Settles (e : Evaluation) (d : Debugger) : Prop :=
  match e.stage with
  | .paused _ _ _ pause => pause.Settles e.ticket d
  | .running _ | .ended _ => True

theorem Goes.settles {p q : Pause} (goes : Goes hit d p q d') (sound : d.channel.Sound)
    (settles : p.Settles hit.ticket d) :
    q.Settles hit.ticket d' ∧ (q.prompt? ≠ none → Stands hit d' q) := by
  cases goes with
  | pass free | found free => exact ⟨free, fun asks => absurd rfl asks⟩
  | unskip | find | inject | eval | «show» => exact ⟨settles, fun asks => absurd rfl asks⟩
  | wait | refuse => exact ⟨trivial, fun asks => absurd rfl asks⟩
  | @ask dialog ask =>
    have pending : d.channel.nextKey ∈ (d.register ask.kind).channel.keys := by
      rw [Debugger.register, Channel.keys_register]
      exact List.mem_append_right _ (.head _)
    have unanswered : (d.register ask.kind).accepts d.channel.nextKey = true :=
      Debugger.accepts_iff.2 ⟨pending, Debugger.reply?_register sound _⟩
    exact ⟨⟨settles, unanswered⟩, fun asks => absurd rfl asks⟩
  | send =>
    obtain ⟨free, unanswered⟩ := settles
    refine ⟨fun tripped => ?_, fun _ => .awaiting free unanswered⟩
    rw [Debugger.isTripped, Debugger.offer] at tripped
    exact absurd (tripped.symm.trans free) (by decide)
  | @take dialog ask key reply replied =>
    refine ⟨Bool.eq_false_iff.2 fun tripped => ?_, fun asks => absurd rfl asks⟩
    rw [settles tripped] at replied
    cases replied

theorem Steps.settles (steps : Steps e d e.stage stage d') (sound : d.channel.Sound)
    (settles : e.Settles d) :
    Evaluation.Settles { e with stage } d' ∧
      (Evaluation.prompt? { e with stage } ≠ none → Evaluation.Waits { e with stage } d') := by
  obtain ⟨ticket, session, before⟩ := e
  cases steps with
  | finish | poll | formStart | arrive | leaves => exact ⟨trivial, fun asks => absurd rfl asks⟩
  | goes goes =>
    obtain ⟨settled, stands⟩ := goes.settles sound settles
    exact ⟨settled, fun asks => ⟨_, _, _, _, rfl, stands asks⟩⟩

theorem Touches.sound {held : Option Key} (touch : Touches e held d d') (sound : d.channel.Sound) :
    d'.channel.Sound := by
  cases touch with
  | nothing | finish | startForm | offer | setPolicy | trip => exact sound
  | register kind => exact sound.register kind
  | forget => exact sound.forget _

namespace Evaluation

theorem stuck_settle (sound : d.channel.Sound) (settles : e.Settles d)
    (stands : e.prompt? ≠ none → e.Waits d) : (e.settle d).1.step? (e.settle d).2 = none := by
  induction e, d using settle.induct with
  | case1 e d free stuck =>
    rw [settle_of_stuck free stuck]
    exact stuck
  | case2 e d free e' d' stepped nearer ih =>
    rw [settle_of_step? free stepped]
    obtain ⟨steps, same⟩ := steps_of_step? stepped
    obtain ⟨settled, stands'⟩ := steps.settles sound settles
    rw [← same] at settled stands'
    exact ih (steps.touches.sound sound) settled stands'
  | case3 e d prompt =>
    rw [settle_of_prompt prompt]
    exact (waits_iff.1 (stands prompt)).1

/-- After an evaluation that settles has been let go on, it cannot go on. -/
theorem stuck_proceed (sound : d.channel.Sound) (settles : e.Settles d) :
    (e.proceed d).1.step? (e.proceed d).2 = none := by
  unfold proceed
  cases stepped : e.step? d with
  | none => exact stepped
  | some after =>
    obtain ⟨e', d'⟩ := after
    obtain ⟨steps, same⟩ := steps_of_step? stepped
    obtain ⟨settled, stands⟩ := steps.settles sound settles
    rw [← same] at settled stands
    exact stuck_settle (steps.touches.sound sound) settled stands

end Evaluation

/-- An evaluation that waits settles again, unless it is cancelled and replied to
    at once. -/
theorem Evaluation.Waits.settles (waits : e.Waits d)
    (single : d'.isTripped e.ticket = d.isTripped e.ticket ∨ d'.channel = d.channel) :
    e.Settles d' := by
  obtain ⟨ticket, session, stage⟩ := e
  obtain ⟨site, value, next, pause, rfl, stands⟩ := waits
  cases stands with
  | unattached => exact trivial
  | awaiting free unanswered =>
    intro tripped
    rcases single with same | channel
    · exact absurd (tripped.symm.trans (same.trans free)) (by decide)
    · rw [Debugger.reply?, channel]
      exact (Debugger.accepts_iff.1 unanswered).2

theorem Expires.settles (expires : Expires d e.stage stage d') :
    Evaluation.Settles { e with stage } d' := by
  obtain ⟨ticket, session, before⟩ := e
  cases expires
  exact trivial

theorem Service.Outside.tripped_or_channel {a : Action} (out : Service.Outside d a d') :
    d'.tripped = d.tripped ∨ d'.channel = d.channel := by
  cases out with
  | attach | release | setRefusing | submit | setPolicy => exact .inl rfl
  | close =>
    unfold Debugger.close
    split <;> exact .inr rfl

/-! ## What others do -/

/-- What an evaluation waits for is as it was. -/
structure Keeps (o : Evaluation) (d d' : Debugger) : Prop where
  slot : d'.slot = d.slot
  tripped : d'.isTripped o.ticket = d.isTripped o.ticket
  prompt : ∀ key, o.stage.held? = some key → d'.channel.find? key = d.channel.find? key

namespace Keeps

theorem refl (o : Evaluation) (d : Debugger) : Keeps o d d := ⟨rfl, rfl, fun _ _ => rfl⟩

theorem trans {d'' : Debugger} (h : Keeps o d d') (h' : Keeps o d' d'') : Keeps o d d'' where
  slot := h'.slot.trans h.slot
  tripped := h'.tripped.trans h.tripped
  prompt key held := (h'.prompt key held).trans (h.prompt key held)

theorem waits (h : Keeps o d d') (waits : o.Waits d) : o.Waits d' := by
  obtain ⟨ticket, session, stage⟩ := o
  obtain ⟨site, value, next, pause, rfl, stands⟩ := waits
  refine ⟨site, value, next, pause, rfl, ?_⟩
  cases stands with
  | unattached free detached => exact .unattached (h.tripped.trans free) (h.slot.trans detached)
  | @awaiting dialog ask key free unanswered =>
    refine .awaiting (h.tripped.trans free) ?_
    rw [Debugger.accepts, Channel.accepts, h.prompt key rfl]
    exact unanswered

theorem settles (h : Keeps o d d') (settles : o.Settles d) : o.Settles d' := by
  obtain ⟨ticket, session, stage⟩ := o
  cases stage with
  | running | ended => exact trivial
  | paused site value next pause =>
    cases pause with
    | arrived | unattached | refused => exact trivial
    | admitted | unskipped | asking | answered => exact h.tripped.trans settles
    | sending dialog ask key =>
      refine ⟨h.tripped.trans settles.1, ?_⟩
      rw [Debugger.accepts, Channel.accepts, h.prompt key rfl]
      exact settles.2
    | awaiting dialog ask key =>
      intro tripped
      rw [Debugger.reply?, h.prompt key rfl]
      exact settles (h.tripped.symm.trans tripped)

end Keeps

/-- The evaluations `o` and `e` have no ticket and no key in common. -/
structure Apart (o e : Evaluation) (d : Debugger) : Prop where
  sound : d.channel.Sound
  ticket : o.ticket ≠ e.ticket
  own : ∀ key, e.stage.held? = some key → key ∈ d.channel.keys
  other : ∀ key, o.stage.held? = some key → key ∈ d.channel.keys ∧ e.stage.held? ≠ some key

theorem Touches.isTripped_other {held : Option Key} {ticket : Ticket} (touch : Touches e held d d')
    (other : ticket ≠ e.ticket) : d'.isTripped ticket = d.isTripped ticket := by
  cases touch with
  | nothing | finish | startForm | register | offer | forget | setPolicy => rfl
  | trip => simp [Debugger.isTripped, Debugger.trip, other]

namespace Apart

/-- With a step of `e` what `o` waits for stays as it was. -/
theorem steps (apart : Apart o e d) (steps : Steps e d e.stage stage d') :
    Keeps o d d' ∧ Apart o { e with stage } d' := by
  have touch := steps.touches
  refine ⟨⟨Service.slot_of_touches touch, touch.isTripped_other apart.ticket, ?_⟩,
    touch.sound apart.sound, apart.ticket, ?_, ?_⟩
  · intro key held
    obtain ⟨pending, unheld⟩ := apart.other key held
    exact touch.find?_channel apart.sound pending unheld
  all_goals
    intro key held
    have change := steps.keyChange apart.own
  · cases change with
    | keep channel same =>
      rw [channel]
      exact apart.own key (same.symm.trans held)
    | gain ask channel _ after =>
      rw [channel, Channel.keys_register, List.mem_append, List.mem_singleton]
      rw [Stage.held?_of_ask? after] at held
      exact .inr (Option.some_inj.1 held).symm
    | lose _ _ _ after =>
      rw [after] at held
      cases held
  · obtain ⟨pending, unheld⟩ := apart.other key held
    cases change with
    | keep channel same =>
      rw [channel, same]
      exact ⟨pending, unheld⟩
    | gain ask channel _ after =>
      rw [channel, Channel.keys_register, Stage.held?_of_ask? after]
      refine ⟨List.mem_append_left _ pending, ?_⟩
      rintro ⟨⟩
      exact apart.sound.nextKey_notMem pending
    | lose lost channel before after =>
      rw [channel, Channel.keys_forget, List.mem_filter, bne_iff_ne, after]
      refine ⟨⟨pending, ?_⟩, nofun⟩
      rintro rfl
      exact unheld before

theorem settle (apart : Apart o e d) :
    Keeps o d (e.settle d).2 ∧ Apart o (e.settle d).1 (e.settle d).2 := by
  induction e, d using Evaluation.settle.induct with
  | case1 e d free stuck =>
    rw [Evaluation.settle_of_stuck free stuck]
    exact ⟨.refl o d, apart⟩
  | case2 e d free e' d' stepped nearer ih =>
    rw [Evaluation.settle_of_step? free stepped]
    obtain ⟨steps, same⟩ := steps_of_step? stepped
    obtain ⟨keeps, apart'⟩ := apart.steps steps
    rw [← same] at apart'
    obtain ⟨keeps', after⟩ := ih apart'
    exact ⟨keeps.trans keeps', after⟩
  | case3 e d prompt =>
    rw [Evaluation.settle_of_prompt prompt]
    exact ⟨.refl o d, apart⟩

/-- What `o` waits for stays as it was while `e` is let go on. -/
theorem keeps_proceed (apart : Apart o e d) : Keeps o d (e.proceed d).2 := by
  unfold Evaluation.proceed
  cases stepped : e.step? d with
  | none => exact .refl o d
  | some after =>
    obtain ⟨e', d'⟩ := after
    obtain ⟨steps, same⟩ := steps_of_step? stepped
    obtain ⟨keeps, apart'⟩ := apart.steps steps
    rw [← same] at apart'
    exact keeps.trans apart'.settle.1

end Apart

namespace Service

variable {t : Service} {i : Nat}

/-- An evaluation that holds no key is left out. -/
theorem Keyed.erase (h : t.Keyed) (unheld : t.held? i = none)
    (channel : d.channel = t.debugger.channel) : Keyed ⟨d, t.evaluations.eraseIdx i⟩ := by
  have stage (j : Nat) : stage? ⟨d, t.evaluations.eraseIdx i⟩ j =
      t.stage? (if j < i then j else j + 1) := by
    rw [stage?, List.getElem?_eraseIdx]
    split <;> rfl
  have held (j : Nat) : held? ⟨d, t.evaluations.eraseIdx i⟩ j =
      t.held? (if j < i then j else j + 1) := by
    rw [held?, stage, held?]
  constructor
  case sound => exact channel ▸ h.sound
  case pending =>
    intro j key hold
    rw [held] at hold
    exact channel ▸ h.pending _ key hold
  case distinct =>
    intro j k key hold hold'
    rw [held] at hold hold'
    have same := h.distinct _ _ key hold hold'
    split at same <;> split at same <;> omega
  case owned =>
    intro key mem
    obtain ⟨j, hold⟩ := h.owned key (channel ▸ mem)
    have different : j ≠ i := by
      rintro rfl
      rw [unheld] at hold
      cases hold
    by_cases before : j < i
    · exact ⟨j, by rw [held, if_pos before, hold]⟩
    · refine ⟨j - 1, ?_⟩
      rw [held, if_neg (by omega), Nat.sub_add_cancel (by omega), hold]
  case kinds =>
    intro j ask key p asked found
    rw [ask?, stage] at asked
    exact h.kinds _ ask key p asked (channel ▸ found)

end Service

end Stepper.Debug

namespace Stepper.Control

open Stepper.Debug Stepper.Eval

namespace Server

variable {s : Server} {m : Move} {before after : List Job} {job : Job} {d : Debugger}
  {connections : Nat}

/-! ## No two evaluations have anything in common -/

/-- The shared state and the evaluations that have not been answered. -/
def service (s : Server) : Service := ⟨s.debugger, s.jobs.map (·.evaluation)⟩

theorem held?_service {i : Nat} (here : s.jobs[i]? = some job) :
    s.service.held? i = job.evaluation.stage.held? := by
  rw [Service.held?, Service.stage?, service, List.getElem?_map, here]
  rfl

/-- The evaluations hold the pending keys, each its own, and each has a ticket
    of its own. -/
structure Orderly (s : Server) : Prop where
  keyed : s.service.Keyed
  fresh : ∀ job ∈ s.jobs, job.evaluation.ticket < s.debugger.tickets
  distinct : (s.jobs.map (·.evaluation.ticket)).Nodup

namespace Orderly

theorem new (settings : Settings) : (new settings).Orderly where
  keyed := .new settings
  fresh _ mem := absurd mem List.not_mem_nil
  distinct := List.nodup_nil

theorem congr (h : s.Orderly) {t : Server} (debugger : t.debugger = s.debugger)
    (jobs : t.jobs = s.jobs) : t.Orderly where
  keyed := by
    rw [service, debugger, jobs]
    exact h.keyed
  fresh := by
    rw [debugger, jobs]
    exact h.fresh
  distinct := by
    rw [jobs]
    exact h.distinct

theorem outside (h : s.Orderly) {a : Action} (out : Service.Outside s.debugger a d) :
    Orderly { s with debugger := d } where
  keyed := h.keyed.outside out
  fresh job mem := by
    rw [out.tickets.1]
    exact h.fresh job mem
  distinct := h.distinct

theorem evaluate (h : s.Orderly) (connection id : Nat) (session code : String) :
    (s.evaluate connection id session code).Orderly := by
  have fresh (job : Job) (mem : job ∈ s.jobs) := h.fresh job mem
  refine ⟨?_, ?_, ?_⟩
  · rw [Server.service, Server.evaluate, List.map_append]
    exact h.keyed.start session code
  · intro job mem
    rcases List.mem_append.1 mem with mem | mem
    · exact Nat.lt_succ_of_lt (fresh job mem)
    · rw [List.mem_singleton.1 mem]
      exact Nat.lt_succ_self _
  · rw [Server.evaluate, List.map_append, List.nodup_append]
    refine ⟨h.distinct, List.pairwise_singleton _ _, ?_⟩
    intro ticket mem other new same
    obtain ⟨job, here, rfl⟩ := List.mem_map.1 mem
    have last : other = s.debugger.tickets := List.mem_singleton.1 new
    exact Nat.ne_of_lt (fresh job here) (same.trans last)

theorem moved (h : s.Orderly) {i : Nat} {stage : Stage} (here : s.jobs[i]? = some job)
    (proceeds : Proceeds job.evaluation s.debugger stage d) :
    Orderly { s with
      debugger := d
      jobs := s.jobs.set i { job with evaluation := { job.evaluation with stage } } } := by
  have there : s.service.evaluations[i]? = some job.evaluation := by
    rw [service, List.getElem?_map, here, Option.map_some]
  have tickets := proceeds.touches.tickets.1
  have change : KeyChange s.debugger job.evaluation.stage stage d := by
    rcases proceeds with steps | expires
    · exact steps.keyChange fun key hold => h.keyed.pending i key ((held?_service here).trans hold)
    · exact expires.keyChange
  refine ⟨?_, ?_, ?_⟩
  · rw [service, List.map_set]
    exact h.keyed.moved there change
  · intro other mem
    rw [tickets]
    rcases List.mem_or_eq_of_mem_set mem with mem | rfl
    · exact h.fresh other mem
    · exact h.fresh job (List.mem_of_getElem? here)
  · have same : (s.jobs.set i { job with evaluation := { job.evaluation with stage } }).map
        (·.evaluation.ticket) = s.jobs.map (·.evaluation.ticket) :=
      map_set_of_eq _ here rfl
    have distinct := h.distinct
    rw [← same] at distinct
    exact distinct

/-- An evaluation that holds no key is left out. -/
theorem erase (h : s.Orderly) {i : Nat} (here : s.jobs[i]? = some job)
    (unheld : job.evaluation.stage.held? = none) (change : Network → Network) :
    Orderly { s with debugger := s.debugger.mapNet change, jobs := s.jobs.eraseIdx i } where
  keyed := by
    have silent : s.service.held? i = none := (held?_service here).trans unheld
    have erased := h.keyed.erase (d := s.debugger.mapNet change) silent rfl
    rw [service, List.eraseIdx_map] at erased
    exact erased
  fresh other mem := h.fresh other (List.mem_of_mem_eraseIdx mem)
  distinct := by
    have distinct := h.distinct.eraseIdx i
    rw [List.eraseIdx_map] at distinct
    exact distinct

theorem ended (h : s.Orderly) {i : Nat} {value : Result} (here : s.jobs[i]? = some job)
    (steps : Steps job.evaluation s.debugger job.evaluation.stage (.ended value) d)
    (change : Network → Network) :
    Orderly { s with debugger := d.mapNet change, jobs := s.jobs.eraseIdx i } := by
  have inside := (List.getElem?_eq_some_iff.1 here).1
  have erased := (h.moved here (.inl steps)).erase (List.getElem?_set_self inside) rfl change
  simp only [List.eraseIdx_set_eq] at erased
  exact erased

theorem act (h : s.Orderly) (m : Move) : (s.act m).Orderly := by
  cases s.effect_act m with
  | calm _ _ _ _ jobs _ _ _ outside =>
    rcases outside with same | ⟨a, out⟩
    · exact h.congr same jobs
    · exact (h.outside out).congr rfl jobs
  | release _ result =>
    rw [result]
    exact h.outside .release
  | evaluate _ _ _ result =>
    rw [result]
    exact h.evaluate _ _ _ _
  | attach _ _ _ result =>
    rw [result]
    exact h.outside .attach
  | goes _ here _ proceeds _ result =>
    rw [result]
    exact h.moved here proceeds
  | ends _ here _ steps result =>
    rw [result]
    exact h.ended here steps _

theorem run (h : s.Orderly) (moves : List Move) : (s.run moves).Orderly := by
  induction moves generalizing s with
  | nil => exact h
  | cons m moves ih => exact ih (h.act m)

/-- An evaluation has nothing in common with those before and after it. -/
theorem apart (h : Orderly ⟨d, before ++ job :: after, connections⟩) {other : Job}
    (mem : other ∈ before ++ after) : Apart other.evaluation job.evaluation d := by
  have here : (before ++ job :: after)[before.length]? = some job := by
    rw [List.getElem?_append_right (Nat.le_refl _), Nat.sub_self, List.getElem?_cons_zero]
  have there : ∃ j, j ≠ before.length ∧ (before ++ job :: after)[j]? = some other := by
    rcases List.mem_append.1 mem with mem | mem
    · obtain ⟨j, there⟩ := List.getElem?_of_mem mem
      have lt := (List.getElem?_eq_some_iff.1 there).1
      exact ⟨j, Nat.ne_of_lt lt, by rw [List.getElem?_append_left lt, there]⟩
    · obtain ⟨j, there⟩ := List.getElem?_of_mem mem
      refine ⟨before.length + (j + 1), by omega, ?_⟩
      rw [List.getElem?_append_right (Nat.le_add_right _ _), Nat.add_sub_cancel_left,
        List.getElem?_cons_succ, there]
  obtain ⟨j, different, there⟩ := there
  have own := held?_service (s := ⟨d, before ++ job :: after, connections⟩) here
  have others := held?_service (s := ⟨d, before ++ job :: after, connections⟩) there
  constructor
  case sound => exact h.keyed.sound
  case ticket =>
    have distinct := h.distinct
    rw [List.map_append, List.map_cons, List.nodup_middle, List.nodup_cons, ← List.map_append]
      at distinct
    exact fun same => distinct.1 (List.mem_map.2 ⟨other, mem, same⟩)
  case own => exact fun key hold => h.keyed.pending _ key (own.trans hold)
  case other =>
    intro key hold
    refine ⟨h.keyed.pending j key (others.trans hold), fun hold' => different ?_⟩
    exact h.keyed.distinct _ _ key (others.trans hold) (own.trans hold')

end Orderly

/-! ## All evaluations left to themselves -/

/-- Every evaluation waits for a client, or for the reply to its prompt. -/
def Waits (s : Server) : Prop := ∀ job ∈ s.jobs, job.evaluation.Waits s.debugger

/-- Every evaluation comes to wait, or to its end, when it is left to itself. -/
def Settles (s : Server) : Prop := ∀ job ∈ s.jobs, job.evaluation.Settles s.debugger

/-- An evaluation is let go on between others: they do not notice, and if it is
    left, it waits. -/
theorem Orderly.advance (h : Orderly ⟨d, before ++ job :: after, connections⟩)
    (unended : job.evaluation.result? = none) (settles : job.evaluation.Settles d) :
    (around before after connections (Server.advance d job)).Orderly ∧
      (∀ other ∈ before ++ after, Keeps other.evaluation d (Server.advance d job).2) ∧
      ∀ left ∈ (Server.advance d job).1.toList, left.evaluation.Waits (Server.advance d job).2 := by
  have orderly : (around before after connections (Server.advance d job)).Orderly := by
    have own : ∃ n, Server.run ⟨d, before ++ job :: after, connections⟩
        (List.replicate n (.advance before.length)) =
          around before after connections (Server.advance d job) :=
      exists_run_around_advance unended d
    obtain ⟨n, own⟩ := own
    rw [← own]
    exact h.run _
  refine ⟨orderly, ?_⟩
  have keeps (other : Job) (mem : other ∈ before ++ after) := (h.apart mem).keeps_proceed
  have stuck : (job.evaluation.proceed d).1.step? (job.evaluation.proceed d).2 = none :=
    Evaluation.stuck_proceed h.keyed.sound settles
  have same : Server.advance d job = conclude job (job.evaluation.proceed d) := rfl
  rw [same]
  generalize job.evaluation.proceed d = gone at keeps stuck
  obtain ⟨e, d'⟩ := gone
  cases result : e.result? with
  | none =>
    simp only [conclude, result]
    exact ⟨keeps, List.forall_mem_singleton.2 (Evaluation.waits_iff.2 ⟨stuck, result⟩)⟩
  | some value =>
    simp only [conclude, result]
    refine ⟨fun other mem => ?_, List.forall_mem_nil _⟩
    have kept := keeps other mem
    exact ⟨kept.slot, kept.tripped, kept.prompt⟩

theorem Effect.settles {t : Server} (effect : Effect s m t) (waiting : s.Waits) : t.Settles := by
  cases effect with
  | calm _ _ _ _ jobs _ _ _ outside =>
    intro job mem
    rw [jobs] at mem
    rcases outside with same | ⟨a, out⟩
    · exact (waiting job mem).settles (.inr (congrArg Debugger.channel same))
    · exact (waiting job mem).settles (out.tripped_or_channel.imp_left fun same => by
        rw [Debugger.isTripped, same, Debugger.isTripped])
  | release _ result | attach _ _ _ result =>
    rw [result]
    exact fun job mem => (waiting job mem).settles (.inr rfl)
  | evaluate _ _ _ result =>
    rw [result]
    intro job mem
    rcases List.mem_append.1 mem with mem | mem
    · exact (waiting job mem).settles (.inr rfl)
    · rw [List.mem_singleton.1 mem]
      exact trivial
  | @goes i job stage d _ here _ proceeds _ result =>
    have stuck := (Evaluation.waits_iff.1 (waiting job (List.mem_of_getElem? here))).1
    rw [result]
    rcases proceeds with steps | expires
    · rw [steps.step?] at stuck
      cases stuck
    · intro other mem
      rcases List.mem_or_eq_of_mem_set mem with mem | rfl
      · exact (waiting other mem).settles (.inl (by
          rw [Debugger.isTripped, expires.tripped, Debugger.isTripped]))
      · exact expires.settles
  | @ends i job value d _ here _ steps =>
    have stuck := (Evaluation.waits_iff.1 (waiting job (List.mem_of_getElem? here))).1
    rw [steps.step?] at stuck
    cases stuck

end Server

end Stepper.Control
