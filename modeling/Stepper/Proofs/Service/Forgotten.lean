/-
  Sessions that have been closed.

  A session that is closed is forgotten, but setting a policy makes it known
  again, and so does an evaluation that obeys `continue` or `out` though it
  has been cancelled meanwhile: exactly when it `MayReopen` the session from
  where it stands (`known_after_close_iff`).
-/
import Stepper.Proofs.Service.Closing
import Stepper.Proofs.Service.Replying

namespace Stepper.Debug

open Stepper.Eval

/-- Whether a reply makes the policy of the session be set, at once or by what
    is answered to a further prompt. -/
def Hit.Reopens (hit : Hit) (d : Debugger) (ask : Ask) (reply : Except Error Reply) : Prop :=
  (ask = .command ∧ (reply = .ok (.command .proceed) ∨ reply = .ok (.command .out))) ∨
    (hit.Continues d ask reply ∧ ask.following reply ≠ .inject)

/-- Whether an evaluation at a breakpoint may still set the policy of its
    session, though it has been cancelled. -/
def Pause.MayReopen (hit : Hit) (d : Debugger) : Pause → Prop
  | .admitted | .unskipped => True
  | .asking _ ask => ask ≠ .inject
  | .sending _ ask key | .awaiting _ ask key =>
    match d.reply? key with
    | none => ask ≠ .inject
    | some reply => hit.Reopens d ask reply
  | .answered _ ask reply => hit.Reopens d ask reply
  | .arrived | .unattached | .refused .. => False

/-- Whether an evaluation may still set the policy of its session, though it
    has been cancelled. -/
def Evaluation.MayReopen (e : Evaluation) (d : Debugger) : Prop :=
  match e.stage with
  | .paused site value _ pause => pause.MayReopen (e.hit site value) d
  | _ => False

/-- Whether an action makes a session known. -/
def Action.Opens (session : String) : Action → Prop
  | .start name _ | .setPolicy name _ => name = session
  | _ => False

variable {e : Evaluation} {d d' : Debugger} {hit : Hit} {session : String}

/-! ## Replies -/

theorem Hit.Reopens.of_tripped {ask : Ask} {reply : Except Error Reply}
    (h : hit.Reopens d' ask reply)
    (tripped : d.isTripped hit.ticket = true → d'.isTripped hit.ticket = true) :
    hit.Reopens d ask reply :=
  h.imp id fun ⟨continues, following⟩ => ⟨continues.of_tripped tripped, following⟩

theorem Hit.Reopens.ne_inject {ask : Ask} {reply : Except Error Reply}
    (h : hit.Reopens d ask reply) : ask ≠ .inject := by
  rcases h with ⟨rfl, -⟩ | ⟨continues, -⟩
  · decide
  · exact continues.ne_inject

theorem Hit.exists_reopens (hit : Hit) (d : Debugger) {ask : Ask} (h : ask ≠ .inject) :
    ∃ text reply, Reply.parse ask.kind text = reply ∧ hit.Reopens d ask reply := by
  obtain ⟨text, reply, read, continues, following⟩ := hit.exists_continues d h
  exact ⟨text, reply, read, .inr ⟨continues, following⟩⟩

/-! ## Sessions stay unknown -/

theorem Pause.MayReopen.of_others {p : Pause} (h : p.MayReopen hit d')
    (tripped : d.isTripped hit.ticket = true → d'.isTripped hit.ticket = true)
    (replies : ∀ key, p.held? = some key → d'.reply? key = d.reply? key ∨ d.reply? key = none) :
    p.MayReopen hit d := by
  cases p with
  | arrived | admitted | unskipped | unattached | asking | refused => exact h
  | answered => exact Hit.Reopens.of_tripped h tripped
  | sending dialog ask key | awaiting dialog ask key =>
    simp only [MayReopen] at h ⊢
    rcases replies key rfl with same | unanswered
    · rw [same] at h
      cases replied : d.reply? key with
      | none =>
        rw [replied] at h
        exact h
      | some reply =>
        rw [replied] at h
        exact h.of_tripped tripped
    · rw [unanswered]
      cases replied : d'.reply? key with
      | none =>
        rw [replied] at h
        exact h
      | some reply =>
        rw [replied] at h
        exact h.ne_inject

theorem Evaluation.MayReopen.of_others (h : e.MayReopen d')
    (tripped : d.isTripped e.ticket = true → d'.isTripped e.ticket = true)
    (replies : ∀ key, e.stage.held? = some key →
      d'.reply? key = d.reply? key ∨ d.reply? key = none) :
    e.MayReopen d := by
  obtain ⟨ticket, session, stage⟩ := e
  cases stage with
  | running | ended => exact h
  | paused site value next pause =>
    have may : pause.MayReopen ⟨ticket, session, site, value⟩ d' := h
    exact may.of_others tripped replies

theorem Evaluation.MayReopen.fading : Service.Fading Evaluation.MayReopen where
  running := id
  others := Evaluation.MayReopen.of_others

theorem Goes.mayReopen {p q : Pause} (goes : Goes hit d p q d') (sound : d.channel.Sound)
    (tripped : d.isTripped hit.ticket = true) (h : q.MayReopen hit d') : p.MayReopen hit d := by
  cases goes with
  | pass free | found free =>
    rw [tripped] at free
    cases free
  | unskip | find | wait => exact trivial
  | ask =>
    rw [Pause.MayReopen, Debugger.reply?_register sound] at h
    exact h
  | send => exact h
  | refuse => cases h
  | take replied =>
    rw [Pause.MayReopen, replied]
    exact h
  | inject => exact absurd rfl h
  | eval => exact .inr ⟨.inr rfl, by decide⟩
  | «show» uncancelled => exact .inr ⟨uncancelled, by simp [Ask.following]⟩

theorem Steps.mayReopen {stage : Stage} (steps : Steps e d e.stage stage d')
    (sound : d.channel.Sound) (tripped : d.isTripped e.ticket = true)
    (h : Evaluation.MayReopen { e with stage } d') : e.MayReopen d := by
  obtain ⟨ticket, session, before⟩ := e
  cases steps with
  | finish | poll | formStart | arrive | leaves => cases h
  | goes goes => exact goes.mayReopen sound tripped h

theorem Touches.find?_sessions {held : Option Key} (touch : Touches e held d d')
    (other : session ≠ e.session) : d'.sessions.find? session = d.sessions.find? session := by
  cases touch with
  | nothing | register | offer | forget | trip => rfl
  | finish => rw [SessionStore.find?_finish, if_neg other]
  | startForm => rw [SessionStore.find?_startForm, if_neg other]
  | setPolicy => rw [Debugger.setPolicy, SessionStore.find?_setPolicy, if_neg other]

theorem Leaves.sessions {p : Pause} {answer : Result} (leaves : Leaves hit d p answer d')
    (calm : ¬ p.MayReopen hit d) : d'.sessions = d.sessions := by
  cases leaves with
  | proceed => exact absurd (.inl ⟨rfl, .inl rfl⟩) calm
  | out => exact absurd (.inl ⟨rfl, .inr rfl⟩) calm
  | stopped | skip | alone | unattached | refused | lost | awaiting | failed | noCommand
  | noExpression | next | quit | inject | eval => rfl

theorem Steps.find?_sessions {stage : Stage} (steps : Steps e d e.stage stage d')
    (unknown : d.sessions.find? session = none) (calm : e.session = session → ¬ e.MayReopen d) :
    d'.sessions.find? session = none := by
  by_cases own : e.session = session
  · obtain ⟨ticket, name, before⟩ := e
    cases own
    cases steps with
    | finish => rw [SessionStore.find?_finish, if_pos rfl, unknown, Option.map_none]
    | formStart => rw [SessionStore.find?_startForm, if_pos rfl, unknown, Option.map_none]
    | poll | arrive => exact unknown
    | goes goes => cases goes <;> exact unknown
    | leaves leaves => rw [leaves.sessions (calm rfl), unknown]
  · rw [steps.touches.find?_sessions (Ne.symm own), unknown]

namespace Service

variable {s : Service} {i : Nat} {next : Result → Run Result} {p : Pause}

/-- A session is unknown, and none of its evaluations will make it known. -/
structure Forgotten (s : Service) (session : String) : Prop where
  unknown : s.debugger.sessions.find? session = none
  stopped : ∀ i, s.session? i = some session → s.Stopped i
  calm : ∀ (i : Nat) (e : Evaluation), s.evaluations[i]? = some e → e.session = session →
    ¬ e.MayReopen s.debugger

theorem Outside.find?_sessions {a : Action} (out : Outside d a d')
    (unknown : d.sessions.find? session = none) (shut : ¬ a.Opens session) :
    d'.sessions.find? session = none := by
  cases out with
  | attach | release | setRefusing | submit => exact unknown
  | setPolicy =>
    rw [Debugger.setPolicy, SessionStore.find?_setPolicy, if_neg (Ne.symm shut), unknown]
  | close =>
    simp only [Debugger.close]
    split
    · exact unknown
    · rename_i closed
      rw [SessionStore.find?_of_close? closed, unknown, ite_self]

theorem Forgotten.act (h : s.Forgotten session) (keyed : s.Keyed) (ticketed : s.Ticketed)
    {a : Action} (shut : ¬ a.Opens session) : (s.act a).Forgotten session := by
  have old : ∀ {i : Nat}, (s.act a).session? i = some session → s.session? i = some session := by
    intro i own
    rcases session?_act own with old | ⟨code, rfl⟩
    · exact old
    · exact absurd rfl shut
  constructor
  case unknown =>
    refine act_induction s a fun u change => ?_
    cases change with
    | idle => exact h.unknown
    | outside out => exact out.find?_sessions h.unknown shut
    | start =>
      rw [Debugger.start, Debugger.takeTicket, SessionStore.find?_begin, if_neg (Ne.symm shut)]
      exact h.unknown
    | advance here steps => exact steps.find?_sessions h.unknown (h.calm _ _ here)
    | expire here expires =>
      rw [moved, expires.sessions]
      exact h.unknown
  case stopped =>
    intro i own
    obtain ⟨e, here, -⟩ := Option.map_eq_some_iff.1 (old own)
    exact (h.stopped i (old own)).act here a
  case calm =>
    intro i f there own may
    have before : s.session? i = some session := old (by rw [session?, there, Option.map_some, own])
    have stopped := h.stopped i before
    obtain ⟨e, here, same, may⟩ := Evaluation.MayReopen.fading.of_act keyed (fun here steps =>
      steps.mayReopen keyed.sound (stopped.tripped ticketed here steps)) there may
    exact h.calm i e here (same.trans own) may

theorem Forgotten.run (h : s.Forgotten session) (keyed : s.Keyed) (ticketed : s.Ticketed)
    {later : List Action} (shut : ∀ a ∈ later, ¬ a.Opens session) :
    (s.run later).Forgotten session := by
  induction later generalizing s with
  | nil => exact h
  | cons a later ih =>
    have now := h.act keyed ticketed (shut a List.mem_cons_self)
    exact ih now (keyed.act a) (ticketed.act a) fun b mem => shut b (List.mem_cons_of_mem a mem)

/-! ## A session becomes known -/

/-- A session becomes known though nobody opens it. -/
def Reopened (s : Service) (session : String) : Prop :=
  ∃ later : List Action, (∀ a ∈ later, ¬ a.Opens session) ∧
    session ∈ (s.run later).debugger.sessions.names

theorem Reopened.of_run {later : List Action} (shut : ∀ a ∈ later, ¬ a.Opens session)
    (h : (s.run later).Reopened session) : s.Reopened session := by
  obtain ⟨more, shut', known⟩ := h
  refine ⟨later ++ more, ?_, ?_⟩
  · intro a mem
    rcases List.mem_append.1 mem with mem | mem
    · exact shut a mem
    · exact shut' a mem
  · rw [run_append]
    exact known

theorem Aids.not_opens {a : Action} (aids : Aids i a) : ¬ a.Opens session := by
  cases a with
  | start | setPolicy => exact absurd aids id
  | attach | release | setRefusing | submit | close | advance | expire => exact id

theorem Leads.reopened {P : Service → Prop} (h : s.Leads i P)
    (known : ∀ t, P t → t.Reopened session) : s.Reopened session := by
  obtain ⟨later, aids, there⟩ := h
  exact Reopened.of_run (fun a mem => (aids a mem).not_opens) (known _ there)

section

variable {dialog : Dialog} {ask : Ask} {key : Key} {reply : Except Error Reply}

theorem Comes.reopens {t : Service} (h : Comes s i hit next p t)
    (reopens : hit.Reopens s.debugger ask reply) : hit.Reopens t.debugger ask reply :=
  reopens.of_tripped fun tripped => (h.isTripped _).symm.trans tripped

theorem At.reopened_of_obeyed {policy : SkipPolicy} {answer : Result} (h : s.At i hit next p)
    (leaves : Leaves hit s.debugger p answer (s.debugger.setPolicy hit.session policy)) :
    s.Reopened hit.session := by
  refine ⟨[.advance i], ?_, ?_⟩
  · rintro a (_ | ⟨_, mem⟩)
    · exact id
    · cases mem
  · rw [SessionStore.mem_names_iff, Service.run, List.foldl_cons, List.foldl_nil,
      (h.leaves leaves).2, Debugger.setPolicy, SessionStore.find?_setPolicy, if_pos rfl]
    exact ⟨_, rfl⟩

variable (keyed : s.Keyed)
include keyed

theorem At.leads_to_reply (h : s.At i hit next (.asking dialog ask)) {text : String}
    (read : Reply.parse ask.kind text = reply) :
    s.Leads i (Comes s i hit next (.answered dialog ask reply)) := by
  refine (h.leads_to_sending keyed).trans ?_
  rintro t ⟨key, comes, unanswered⟩
  refine (comes.here.leads_to_awaiting comes.keyed).trans ?_
  rintro u ⟨comes', same⟩
  refine (comes'.here.leads_to_answered comes'.keyed (same.trans unanswered) read).mono ?_
  intro v comes''
  exact (comes.trans comes').trans comes''

theorem At.reopened_of_command (h : s.At i hit next (.asking dialog .command)) :
    s.Reopened hit.session := by
  have read : Reply.parse Ask.command.kind "continue" = .ok (.command .proceed) := rfl
  refine (h.leads_to_reply keyed read).reopened fun t comes => ?_
  exact comes.here.reopened_of_obeyed .proceed

theorem At.reopened_of_asking (h : s.At i hit next (.asking dialog ask)) (free : ask ≠ .inject) :
    s.Reopened hit.session := by
  cases ask with
  | command => exact h.reopened_of_command keyed
  | inject => exact absurd rfl free
  | eval =>
    -- whatever is shown, a command is asked for next
    obtain ⟨text, reply, read, continues, -⟩ := hit.exists_continues s.debugger free
    refine (h.leads_to_reply keyed read).reopened fun t comes => ?_
    refine (comes.here.leads_to_asking comes.keyed (comes.continues continues)).reopened ?_
    rintro u ⟨shown, comes'⟩
    exact comes'.here.reopened_of_command comes'.keyed

theorem At.reopened_of_answered (h : s.At i hit next (.answered dialog ask reply))
    (reopens : hit.Reopens s.debugger ask reply) : s.Reopened hit.session := by
  rcases reopens with ⟨rfl, rfl | rfl⟩ | ⟨continues, free⟩
  · exact h.reopened_of_obeyed .proceed
  · exact h.reopened_of_obeyed .out
  · refine (h.leads_to_asking keyed continues).reopened ?_
    rintro t ⟨shown, comes⟩
    exact comes.here.reopened_of_asking comes.keyed free

theorem At.reopened_of_awaiting (h : s.At i hit next (.awaiting dialog ask key))
    (may : (Pause.awaiting dialog ask key).MayReopen hit s.debugger) : s.Reopened hit.session := by
  rw [Pause.MayReopen] at may
  cases replied : s.debugger.reply? key with
  | none =>
    rw [replied] at may
    obtain ⟨text, reply, read, reopens⟩ := hit.exists_reopens s.debugger may
    refine (h.leads_to_answered keyed replied read).reopened fun t comes => ?_
    exact comes.here.reopened_of_answered comes.keyed (comes.reopens reopens)
  | some reply =>
    rw [replied] at may
    refine (h.leads_of_reply keyed replied).reopened fun t comes => ?_
    exact comes.here.reopened_of_answered comes.keyed (comes.reopens may)

theorem At.reopened_of_unskipped (h : s.At i hit next .unskipped) : s.Reopened hit.session := by
  obtain ⟨later, client, aids, keyed', there⟩ := h.exists_asking keyed
  have shut : ∀ a ∈ later, ¬ a.Opens hit.session := by
    intro a mem
    rcases aids a mem with aids | ⟨client, rfl⟩
    · exact aids.not_opens
    · exact id
  exact Reopened.of_run shut (there.reopened_of_asking keyed' (by decide))

theorem At.reopened_of_mayReopen (h : s.At i hit next p)
    (prompts : s.debugger.sessions.skips hit.session hit.site.place = false)
    (may : p.MayReopen hit s.debugger) : s.Reopened hit.session := by
  cases p with
  | arrived | unattached | refused => cases may
  | admitted =>
    refine (h.leads_of_goes keyed (.unskip prompts) rfl).reopened ?_
    rintro t ⟨comes, -⟩
    exact comes.here.reopened_of_unskipped comes.keyed
  | unskipped => exact h.reopened_of_unskipped keyed
  | asking => exact h.reopened_of_asking keyed may
  | sending dialog ask key =>
    refine (h.leads_to_awaiting keyed).reopened ?_
    rintro t ⟨comes, same⟩
    refine comes.here.reopened_of_awaiting comes.keyed ?_
    refine Pause.MayReopen.of_others may (fun tripped => (comes.isTripped _).symm.trans tripped) ?_
    rintro _ ⟨⟩
    exact .inl same.symm
  | awaiting => exact h.reopened_of_awaiting keyed may
  | answered => exact h.reopened_of_answered keyed may

end

/-- After its closing a session becomes known in some continuation in which
    nobody opens it, exactly if one of its evaluations may reopen it. -/
theorem known_after_close_iff (reachable : s.Reachable) (session : String) :
    (∃ later : List Action, (∀ a ∈ later, ¬ a.Opens session) ∧
      session ∈ ((s.act (.close session)).run later).debugger.sessions.names) ↔
      ∃ e ∈ s.evaluations, e.session = session ∧
        e.MayReopen (s.act (.close session)).debugger := by
  have keyed := reachable.keyed.act (.close session)
  constructor
  · rintro ⟨later, shut, known⟩
    refine Classical.byContradiction fun none => ?_
    have forgotten : (s.act (.close session)).Forgotten session := by
      constructor
      case unknown => exact find?_close session
      case stopped => exact fun i own => stopped_of_close reachable own
      case calm =>
        intro i e here own may
        exact none ⟨e, List.mem_of_getElem? here, own, may⟩
    have unknown := (forgotten.run keyed (reachable.ticketed.act _) shut).unknown
    obtain ⟨_, found⟩ := SessionStore.mem_names_iff.1 known
    rw [unknown] at found
    cases found
  · rintro ⟨e, mem, rfl, may⟩
    obtain ⟨i, here⟩ := List.getElem?_of_mem mem
    obtain ⟨ticket, session, stage⟩ := e
    cases stage with
    | running | ended => cases may
    | paused site value next pause =>
      have standing : (s.act (.close session)).At i ⟨ticket, session, site, value⟩ next pause :=
        here
      refine standing.reopened_of_mayReopen keyed ?_ may
      simp only [SessionStore.skips, SessionStore.policy, find?_close]
      rfl

/-- A client is prompted at a breakpoint and answers `continue`. -/
def proceeding : List Action :=
  .attach ⟨1, 10⟩ false :: .start "main" "#break 1" ::
    (List.replicate 7 (.advance 0) ++ [.submit (.nth 1) "continue"])

theorem known_after_close_while_proceeding :
    ((new .default).run proceeding).Reachable ∧
      ∃ later : List Action, (∀ a ∈ later, ¬ a.Opens "main") ∧
        "main" ∈ ((((new .default).run proceeding).act (.close "main")).run
          later).debugger.sessions.names := by
  have reachable : ((new .default).run proceeding).Reachable := ⟨.default, proceeding, rfl⟩
  refine ⟨reachable, (known_after_close_iff reachable "main").2
    ⟨_, List.mem_of_getElem? (i := 0) rfl, rfl, ?_⟩⟩
  exact .inl ⟨rfl, .inl rfl⟩

theorem closed_session_not_forgotten :
    ¬ ∀ (s : Service) (session : String) (later : List Action), s.Reachable →
      (s.debugger.close session).1 = true → (∀ a ∈ later, ¬ a.Opens session) →
      session ∉ ((s.act (.close session)).run later).debugger.sessions.names := by
  intro forgotten
  refine forgotten ((new .default).run proceeding) "main" (List.replicate 2 (.advance 0))
    ⟨.default, proceeding, rfl⟩ rfl ?_ (List.mem_singleton.2 rfl)
  intro a mem
  rw [List.eq_of_mem_replicate mem]
  exact id

end Service

end Stepper.Debug
