/-
  Who has been aborted, and by what.

  Neither a program nor a client makes up the error `cancelled`
  (`Reachable.genuine`), so an evaluation that ends with it has been
  cancelled.  That it was cancelled goes back to one action, with which it
  took `quit` at one of its prompts or its own session was closed
  (`aborts_of_condemned`); and the prompt at which it took `quit` is the last
  one that it sent (`Prompted.act`, `Aborting.pushes`).
-/
import Stepper.Proofs.Debug.Mirror
import Stepper.Proofs.Service.Aborting
import Stepper.Proofs.Service.Cleanup

namespace Stepper.Debug

open Stepper.Eval

/-! ## Genuine replies -/

theorem Reply.parse_ne_cancelled (kind : InputKind) (text : String) :
    Reply.parse kind text ≠ .error .cancelled := by
  intro cancelled
  obtain ⟨fault, same⟩ := malformedReply_of_parse cancelled
  cases same

/-- No reply says that the evaluation has been cancelled. -/
def Channel.Genuine (c : Channel) : Prop := ∀ p ∈ c.pending, p.reply ≠ some (.error .cancelled)

/-- The reply that has been taken does not say that the evaluation has been
    cancelled. -/
def Stage.Genuine : Stage → Prop
  | .paused _ _ _ (.answered _ _ reply) => reply ≠ .error .cancelled
  | _ => True

variable {c c' : Channel} {key : Key} {reply : Except Error Reply} {e : Evaluation}
  {d d' : Debugger} {hit : Hit} {p q : Pause} {stage stage' : Stage}

theorem Channel.Genuine.becomes (h : c.Genuine) (becomes : c.Becomes c') : c'.Genuine := by
  cases becomes with
  | same => exact h
  | register kind =>
    intro p mem
    simp only [register, List.mem_append, List.mem_singleton] at mem
    rcases mem with mem | rfl
    · exact h p mem
    · simp
  | forget key =>
    intro p mem
    exact h p (List.mem_filter.1 mem).1
  | submit key text =>
    intro p mem
    unfold submit at mem
    split at mem
    · obtain ⟨q, old, rfl⟩ := List.mem_map.1 mem
      split
      · intro same
        exact Reply.parse_ne_cancelled q.kind text (Option.some_inj.1 same)
      · exact h q old
    · exact h p mem

theorem Debugger.reply?_ne_cancelled (h : d.channel.Genuine) (replied : d.reply? key = some reply) :
    reply ≠ .error .cancelled := by
  rintro rfl
  obtain ⟨p, found, same⟩ := reply?_eq_some_iff.1 replied
  exact h p (List.mem_of_find?_eq_some found) same

theorem Steps.genuine (steps : Steps e d stage stage' d') (replies : d.channel.Genuine) :
    stage'.Genuine := by
  cases steps with
  | finish | poll | formStart | arrive | leaves => exact trivial
  | goes goes =>
    cases goes with
    | take replied => exact Debugger.reply?_ne_cancelled replies replied
    | pass | unskip | find | wait | found | ask | send | refuse | inject | eval => exact trivial
    | «show» => exact trivial

theorem Expires.genuine (expires : Expires d stage stage' d') : stage'.Genuine := by
  cases expires with
  | awaiting => exact trivial

/-! ## What cancels -/

/-- What the evaluation still has to do does not end with `cancelled` unless it
    is told so. -/
abbrev Stage.Uncancelled (stage : Stage) : Prop :=
  stage.rest.Uncancelled fun result => result ≠ .error .cancelled

theorem Debugger.uncancelled_runOf (code : String) :
    (runOf code).Uncancelled fun result => result ≠ .error .cancelled :=
  (Run.uncancelled_bind _ _).2 (uncancelled_evalSource [] code ⟨[], 0⟩)

/-- A breakpoint does not tell an evaluation that it has been cancelled, unless
    it has been. -/
theorem Leaves.ne_cancelled {answer : Result} {site : Site} {value : Value}
    {next : Result → Run Result} (leaves : Leaves hit d p answer d')
    (genuine : (Stage.paused site value next p).Genuine)
    (free : d'.isTripped hit.ticket = false) : answer ≠ .error .cancelled := by
  cases leaves with
  | stopped tripped | unattached tripped | awaiting _ tripped =>
    exact absurd (tripped.symm.trans free) (by decide)
  | quit => simp [Debugger.isTripped, Debugger.trip] at free
  | failed => exact fun same => genuine (congrArg Except.error (Except.error.inj same))
  | inject =>
    rw [free]
    exact Snapshot.evaluateForm_ne_cancelled _ _ _
  | eval cancelled =>
    rw [free] at cancelled
    exact absurd cancelled (Snapshot.evaluateForm_ne_cancelled _ _ _)
  | skip | alone | refused | lost | noCommand | noExpression | next | proceed | out =>
    exact fun same => by cases same

theorem Steps.uncancelled (steps : Steps e d stage stage' d') (genuine : stage.Genuine)
    (free : d'.isTripped e.ticket = false) (h : stage.Uncancelled) : stage'.Uncancelled := by
  cases steps with
  | finish | arrive | goes | formStart => exact h
  | poll =>
    rw [free]
    exact h
  | leaves leaves => exact h _ (leaves.ne_cancelled genuine free)

theorem Expires.uncancelled (expires : Expires d stage stage' d') (h : stage.Uncancelled) :
    stage'.Uncancelled := by
  cases expires with
  | awaiting => exact h _ fun same => by cases same

theorem Expires.quits (expires : Expires d stage stage' d') : stage'.quits = false := by
  cases expires with
  | awaiting => rfl

/-- Who is about to cancel itself has just taken `quit`. -/
theorem Steps.takes_quit (steps : Steps e d stage stage' d') (quits : stage'.quits = true) :
    ∃ site value next dialog key, stage = .paused site value next (.awaiting dialog .command key) ∧
      d.reply? key = some (.ok (.command .quit)) := by
  cases steps with
  | finish | poll | formStart | arrive | leaves => cases quits
  | goes goes =>
    cases goes with
    | take replied =>
      unfold Stage.quits at quits
      split at quits
      · rename_i same
        cases same
        exact ⟨_, _, _, _, _, rfl, replied⟩
      · cases quits
    | pass | unskip | find | wait | found | ask | send | refuse | inject | eval => cases quits
    | «show» => cases quits

/-- The prompt that a client has been sent. -/
def Hit.prompt (hit : Hit) (dialog : Dialog) (ask : Ask) (key : Key) : Push :=
  ⟨hit.site.place, dialog.client.connection,
    dialog.client.message ["awaiting-input"] (hit.promptBody dialog ask key), false⟩

/-- A prompt is awaited after it has been sent. -/
theorem Steps.sent {site : Site} {value : Value} {next : Result → Run Result} {dialog : Dialog}
    {ask : Ask} (steps : Steps e d stage (.paused site value next (.awaiting dialog ask key)) d') :
    stage = .paused site value next (.sending dialog ask key) ∧
      d.net.accepts dialog.client.connection = true := by
  cases steps with
  | goes goes =>
    cases goes with
    | send accepts => exact ⟨rfl, accepts⟩

namespace Service

variable {s : Service} {i : Nat}

/-- Nothing says that an evaluation has been cancelled but the cancelling. -/
structure Genuine (s : Service) : Prop where
  replies : s.debugger.channel.Genuine
  taken : ∀ i stage, s.stage? i = some stage → stage.Genuine
  uncancelled : ∀ i stage, s.stage? i = some stage → s.debugger.isTripped i = false →
    stage.Uncancelled

theorem Genuine.new (settings : Settings) : (new settings).Genuine where
  replies _ mem := by cases mem
  taken _ _ there := by cases there
  uncancelled _ _ there := by cases there

theorem Genuine.act (h : s.Genuine) (ticketed : s.Ticketed) (a : Action) : (s.act a).Genuine where
  replies := h.replies.becomes (becomes_act s a)
  taken i stage there := by
    cases reaches_of_act there with
    | stays there => exact h.taken i stage there
    | start => exact trivial
    | advance here steps => exact steps.genuine h.replies
    | expire here expires => exact expires.genuine
  uncancelled i stage there free := by
    have before : s.debugger.isTripped i = false := by
      rw [← Bool.not_eq_true] at free ⊢
      exact fun tripped => free (isTripped_of_isTripped tripped)
    cases reaches_of_act there with
    | stays there => exact h.uncancelled i stage there before
    | start => exact Debugger.uncancelled_runOf _
    | @advance e _ here steps =>
      have there := stage?_eq here
      refine steps.uncancelled (h.taken i _ there) ?_ (h.uncancelled i _ there before)
      rw [ticketed.ticket i e here, free]
    | expire here expires =>
      exact expires.uncancelled (h.uncancelled i _ (stage?_eq here) before)

theorem Reachable.genuine (h : s.Reachable) : s.Genuine :=
  h.invariant .new fun _ a reachable genuine => genuine.act reachable.ticketed a

/-- Who has been aborted has been cancelled. -/
theorem Reachable.isTripped_of_aborted (h : s.Reachable) (aborted : s.outcome? i = some .aborted) :
    s.debugger.isTripped i = true := by
  obtain ⟨result, ended, aborts⟩ := Option.map_eq_some_iff.1 aborted
  obtain ⟨e, here, last⟩ := Option.bind_eq_some_iff.1 ended
  have there := stage?_eq here
  obtain ⟨ticket, session, stage⟩ := e
  cases stage with
  | running | paused => cases last
  | ended result' =>
    cases last
    have cancelled : result = .error .cancelled := by
      cases result with
      | ok value => cases aborts
      | error e => cases e <;> first | rfl | cases aborts
    rw [← Bool.not_eq_false]
    exact fun free => h.genuine.uncancelled i _ there free cancelled

/-! ## Causes -/

/-- With the action the `i`-th evaluation takes `quit` as the reply to a prompt
    at which it stands. -/
def TakesQuit (s : Service) (i : Nat) (hit : Hit) (dialog : Dialog) (key : Key) (a : Action) :
    Prop :=
  a = .advance i ∧ (∃ next, s.At i hit next (.awaiting dialog .command key)) ∧
    s.debugger.reply? key = some (.ok (.command .quit))

/-- The action aborts the `i`-th evaluation: it takes `quit`, or its session is
    closed while it runs there. -/
def Aborts (s : Service) (i : Nat) (a : Action) : Prop :=
  (∃ hit dialog key, s.TakesQuit i hit dialog key a) ∨
    ∃ session, a = .close session ∧ s.session? i = some session ∧
      i ∈ s.debugger.sessions.running session

/-- The `i`-th evaluation has been cancelled, or is about to cancel itself. -/
def Condemned (s : Service) (i : Nat) : Prop :=
  s.debugger.isTripped i = true ∨ ∃ stage, s.stage? i = some stage ∧ stage.quits = true

/-- Who cancels an evaluation. -/
theorem cause_of_isTripped (ticketed : s.Ticketed) {a : Action}
    (h : (s.act a).debugger.isTripped i = true) :
    s.Condemned i ∨ ∃ session, a = .close session ∧ i ∈ s.debugger.sessions.running session := by
  have old : i ∈ s.debugger.tripped → s.Condemned i := fun mem =>
    .inl (by simpa [Debugger.isTripped] using mem)
  have mem : i ∈ (s.act a).debugger.tripped := by simpa [Debugger.isTripped] using h
  revert h mem
  refine act_induction s a fun u change h mem => ?_
  cases change with
  | idle | start => exact .inl (old mem)
  | outside out =>
    obtain ⟨-, tripped, -⟩ := out.tickets
    exact (tripped i mem).imp_left old
  | @advance j e stage d here steps =>
    refine .inl ?_
    by_cases same : i = j
    · subst same
      have ticket := ticketed.ticket i e here
      have own := steps.isTripped
      rw [ticket] at own
      rw [Service.moved, own, Bool.or_eq_true] at h
      exact h.symm.imp_right fun quits => ⟨e.stage, stage?_eq here, quits⟩
    · obtain ⟨-, tripped, -⟩ := steps.touches.tickets
      rcases tripped i mem with mem | own
      · exact old mem
      · exact absurd (own.trans (ticketed.ticket j e here)) same
  | @expire j e stage d here expires =>
    have same : d.tripped = s.debugger.tripped := expires.tripped
    exact .inl (old (same ▸ mem))

/-- An evaluation is condemned by its own `quit`, or by the closing of its own
    session. -/
theorem aborts_of_condemned (ticketed : s.Ticketed) {a : Action} (free : ¬ s.Condemned i)
    (h : (s.act a).Condemned i) : s.Aborts i a := by
  rcases h with tripped | ⟨stage, there, quits⟩
  · rcases cause_of_isTripped ticketed tripped with before | ⟨session, closes, running⟩
    · exact absurd before free
    · exact .inr ⟨session, closes, ticketed.running session i running, running⟩
  · cases reaches_of_act there with
    | stays there => exact absurd (.inr ⟨stage, there, quits⟩) free
    | start => cases quits
    | @advance e _ here steps =>
      obtain ⟨ticket, session, stage⟩ := e
      obtain ⟨site, value, next, dialog, key, rfl, replied⟩ := steps.takes_quit quits
      exact .inl ⟨⟨ticket, session, site, value⟩, dialog, key, rfl, ⟨next, here⟩, replied⟩
    | expire here expires =>
      rw [expires.quits] at quits
      cases quits

/-! ## The last prompt -/

theorem At.same_hit {next : Result → Run Result} {a : Action} (h : (s.act a).At i hit next p)
    (ticketed : s.Ticketed) (here : s.evaluations[i]? = some e) :
    e.ticket = hit.ticket ∧ e.session = hit.session := by
  have ticket : hit.ticket = i := (ticketed.act a).ticket i _ h
  have own : s.session? i = some e.session := by rw [session?, here, Option.map_some]
  have session := session?_of_act own a
  rw [session?, h] at session
  exact ⟨(ticketed.ticket i e here).trans ticket.symm, (Option.some_inj.1 session).symm⟩

/-- The prompt that the `i`-th evaluation awaits is the last of these. -/
def Prompted (s : Service) (i : Nat) (sent : List Push) : Prop :=
  ∀ {hit next dialog ask key}, s.At i hit next (.awaiting dialog ask key) →
    ∃ earlier, sent = earlier ++ [hit.prompt dialog ask key]

theorem Prompted.act {sent : List Push} (h : s.Prompted i sent) (ticketed : s.Ticketed)
    (a : Action) : (s.act a).Prompted i (sent ++ s.pushed i a) := by
  intro hit next dialog ask key there
  cases reaches_of_act there.stage? with
  | stays before =>
    obtain ⟨⟨ticket, session, stage⟩, here, paused⟩ := Option.map_eq_some_iff.1 before
    obtain ⟨sameTicket, sameSession⟩ := there.same_hit ticketed here
    cases sameTicket
    cases sameSession
    cases paused
    rw [pushed_eq_nil before rfl, List.append_nil]
    exact h here
  | @advance e _ here steps =>
    obtain ⟨sameTicket, sameSession⟩ := there.same_hit ticketed here
    obtain ⟨sending, accepts⟩ := steps.sent
    obtain ⟨ticket, session, stage⟩ := e
    cases sameTicket
    cases sameSession
    cases sending
    refine ⟨sent, ?_⟩
    rw [pushed_of_sending here, accepts]
    rfl
  | @expire e _ here expires =>
    generalize e.stage = before at expires
    cases expires

/-- The prompt that an evaluation awaits is the last one that it has sent. -/
theorem Prompted.run {sent : List Push} (h : s.Prompted i sent) (ticketed : s.Ticketed)
    (actions : List Action) : (s.run actions).Prompted i (sent ++ s.pushes i actions) := by
  induction actions generalizing s sent with
  | nil =>
    rw [pushes, List.append_nil]
    exact h
  | cons a actions ih =>
    rw [pushes, ← List.append_assoc]
    exact ih (h.act ticketed a) (ticketed.act a)

/-- Who has taken `quit` is bound to end as aborted. -/
theorem TakesQuit.aborting (reachable : s.Reachable) {dialog : Dialog} {a : Action}
    (h : s.TakesQuit i hit dialog key a) : (s.act a).Aborting i 2 ∧ s.pushed i a = [] := by
  obtain ⟨rfl, ⟨next, here⟩, replied⟩ := h
  obtain ⟨there, -⟩ := here.goes (.take replied)
  refine ⟨⟨_, there.stage?, .quits ?_⟩, pushed_eq_nil here.stage? rfl⟩
  exact (reachable.final here.stage?).answer .cancelled

theorem Aborting.outcome_of_result? {n : Nat} (h : s.Aborting i n) {result : Result}
    (ended : s.result? i = some result) : s.outcome? i = some .aborted := by
  obtain ⟨stage, there, aborting⟩ := h
  obtain ⟨e, here, rfl⟩ := Option.map_eq_some_iff.1 there
  rw [Service.outcome?, ended]
  rw [result?, here, Option.bind_some] at ended
  obtain ⟨ticket, session, stage⟩ := e
  cases aborting with
  | quits | fails => cases ended
  | ended =>
    cases ended
    rfl

/-- An evaluation that ends as aborted has been cancelled, and the cause was
    its own `quit` or the closing of its own session.  Whenever it takes `quit`
    it ends as aborted, and the prompt was its last one.  Nobody but itself and
    who closes its session cancels it. -/
theorem aborted_deliberately (settings : Settings) (actions : List Action) (i : Nat) :
    (((new settings).run actions).outcome? i = some .aborted →
      ((new settings).run actions).debugger.isTripped i = true ∧
      ∃ before a after, actions = before ++ a :: after ∧
        ((new settings).run before).debugger.isTripped i = false ∧
        ((new settings).run before).Aborts i a) ∧
    (∀ before a after hit dialog key, actions = before ++ a :: after →
      ((new settings).run before).TakesQuit i hit dialog key a →
      (∃ earlier, (new settings).pushes i actions =
        earlier ++ [hit.prompt dialog .command key]) ∧
      (∀ result, ((new settings).run actions).result? i = some result →
        ((new settings).run actions).outcome? i = some .aborted) ∧
      ((List.replicate 2 (.advance i)).Sublist after →
        ((new settings).run actions).outcome? i = some .aborted)) ∧
    ∀ before a after session, actions = before ++ a :: after →
      ((new settings).run before).session? i = some session →
      ¬ Moves i a → a ≠ .close session →
      (((new settings).run before).act a).debugger.isTripped i =
        ((new settings).run before).debugger.isTripped i := by
  have reachable : ∀ actions, ((new settings).run actions).Reachable := fun actions =>
    ⟨settings, actions, rfl⟩
  refine ⟨fun aborted => ?_, ?_, ?_⟩
  · have tripped := (reachable actions).isTripped_of_aborted aborted
    refine ⟨tripped, ?_⟩
    have fresh : ¬ (new settings).Condemned i := by
      rintro (tripped | ⟨stage, there, -⟩)
      · cases tripped
      · cases there
    obtain ⟨before, a, after, split, free, condemned⟩ :=
      exists_cause (P := fun s => s.Condemned i) fresh (.inl tripped)
    refine ⟨before, a, after, split, ?_, ?_⟩
    · rw [← Bool.not_eq_true]
      exact fun tripped => free (.inl tripped)
    · exact aborts_of_condemned (reachable before).ticketed free condemned
  · rintro before a after hit dialog key rfl takes
    obtain ⟨aborting, silent⟩ := takes.aborting (reachable before)
    have later : (new settings).run (before ++ a :: after) =
        (((new settings).run before).act a).run after := run_append _ _ _
    refine ⟨?_, fun result ended => ?_, fun turns => ?_⟩
    · obtain ⟨-, ⟨next, here⟩, -⟩ := takes
      have fresh : (new settings).Prompted i [] := by
        intro hit next dialog ask key here
        cases here
      obtain ⟨earlier, last⟩ := fresh.run (.new settings) before here
      refine ⟨earlier, ?_⟩
      rw [pushes_append, pushes, silent, aborting.pushes, List.append_nil, List.append_nil,
        ← last, List.nil_append]
    · rw [later] at ended ⊢
      obtain ⟨n, still⟩ := run_induction (P := fun s => ∃ n, s.Aborting i n)
        (fun s b h => h.elim fun n aborting => aborting.act b) ⟨2, aborting⟩ after
      exact still.outcome_of_result? ended
    · rw [later]
      exact aborting.run turns
  · rintro before a after session - own others unclosed
    cases tripped : ((new settings).run before).debugger.isTripped i with
    | true => exact isTripped_of_isTripped tripped
    | false => exact isTripped_act (reachable before).ticketed own others unclosed tripped

/-- A client is prompted at a breakpoint and answers `quit`. -/
def quitting : List Action :=
  [.attach ⟨1, 10⟩ false, .start "main" "#break 1"] ++ List.replicate 7 (.advance 0) ++
    [.submit (.nth 1) "quit"]

theorem aborted_deliberately_by_quitting :
    let actions := quitting ++ List.replicate 3 (.advance 0)
    (∃ hit dialog, ((new .default).run quitting).TakesQuit 0 hit dialog (.nth 1) (.advance 0)) ∧
      ((new .default).run actions).outcome? 0 = some .aborted ∧
      ((new .default).run actions).debugger.isTripped 0 = true ∧
      ((new .default).pushes 0 actions).length = 1 := by
  intro actions
  have takes : ((new .default).run quitting).TakesQuit 0 ⟨0, "main", _, _⟩ ⟨⟨1, 10⟩, none⟩ (.nth 1)
      (.advance 0) := ⟨rfl, ⟨_, rfl⟩, rfl⟩
  obtain ⟨cancelled, quits, -⟩ := aborted_deliberately .default actions 0
  obtain ⟨-, -, aborted⟩ := quits quitting (.advance 0) (List.replicate 2 (.advance 0)) _ _ _ rfl
    takes
  have ends := aborted (List.Sublist.refl _)
  exact ⟨⟨_, _, takes⟩, ends, (cancelled ends).1, rfl⟩

end Service

end Stepper.Debug
