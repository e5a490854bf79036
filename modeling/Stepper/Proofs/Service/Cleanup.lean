/-
  What an evaluation leaves behind.

  Of the keys that an evaluation has been given only the one that it holds can
  be pending (`Accounted.run`), and who has ended runs in no session
  (`Retired.act`).  So an evaluation that has ended has cleaned up, on
  whatever way it came there, and none of its steps touches what belongs to
  others (`cleans_up`).
-/
import Stepper.Proofs.Service.Closing

namespace Stepper.Debug

open Stepper.Eval

/-! ## The channel -/

/-- What an action makes of the channel. -/
inductive Channel.Becomes (c : Channel) : Channel → Prop
  | same : Becomes c c
  | register (kind : InputKind) : Becomes c (c.register kind)
  | forget (key : Key) : Becomes c (c.forget key)
  | submit (key : Key) (text : String) : Becomes c (c.submit key text)

variable {c c' : Channel} {key : Key} {e : Evaluation} {d d' : Debugger} {stage : Stage}

theorem Channel.Becomes.hasIssued (h : c.Becomes c') (issued : c.HasIssued key) :
    c'.HasIssued key := by
  cases h with
  | same | forget => exact issued
  | register => exact issued.register
  | submit => exact Channel.hasIssued_submit_iff.2 issued

/-- A key that has been given out does not become pending again. -/
theorem Channel.Becomes.mem_keys (h : c.Becomes c') (issued : c.HasIssued key)
    (mem : key ∈ c'.keys) : key ∈ c.keys := by
  cases h with
  | same => exact mem
  | register =>
    rw [Channel.keys_register, List.mem_append, List.mem_singleton] at mem
    rcases mem with mem | rfl
    · exact mem
    · exact absurd issued c.not_hasIssued_nextKey
  | forget =>
    rw [Channel.keys_forget] at mem
    exact (List.mem_filter.1 mem).1
  | submit =>
    rw [Channel.keys_submit] at mem
    exact mem

theorem Touches.becomes {held : Option Key} (touch : Touches e held d d') :
    d.channel.Becomes d'.channel := by
  cases touch with
  | nothing | finish | startForm | offer | setPolicy | trip => exact .same
  | register kind => exact .register kind
  | forget => exact .forget _

/-! ## Running evaluations -/

theorem Touches.filter_running {held : Option Key} (touch : Touches e held d d')
    (session : String) :
    (d'.sessions.running session).filter (· != e.ticket) =
      (d.sessions.running session).filter (· != e.ticket) := by
  cases touch with
  | nothing | register | offer | forget | trip => rfl
  | startForm => simp only [SessionStore.running_startForm]
  | setPolicy => simp only [Debugger.setPolicy, SessionStore.running_setPolicy]
  | finish =>
    simp only [SessionStore.running_finish]
    split
    · rename_i same
      simp [same]
    · rfl

namespace Service

variable {s : Service} {i : Nat}

theorem becomes_act (s : Service) (a : Action) :
    s.debugger.channel.Becomes (s.act a).debugger.channel := by
  refine act_induction s a fun u change => ?_
  cases change with
  | idle | start => exact .same
  | outside out =>
    rcases out.channel with same | ⟨key, text, -, same⟩
    · exact same ▸ .same
    · exact same ▸ .submit key text
  | advance here steps => exact steps.touches.becomes
  | @expire j e stage d here expires => exact (expires.touches (e := e)).becomes

/-- A key that has been forgotten stays so. -/
theorem notMem_keys_run {key : Key} (issued : s.debugger.channel.HasIssued key)
    (gone : key ∉ s.debugger.channel.keys) (actions : List Action) :
    key ∉ (s.run actions).debugger.channel.keys := by
  have both := run_induction (P := fun s => s.debugger.channel.HasIssued key ∧
    key ∉ s.debugger.channel.keys) ?_ ⟨issued, gone⟩ actions
  · exact both.2
  · rintro s a ⟨issued, gone⟩
    have becomes := becomes_act s a
    exact ⟨becomes.hasIssued issued, fun mem => gone (becomes.mem_keys issued mem)⟩

/-! ## Keys -/

/-- The key that the `i`-th evaluation is given in an action. -/
def given (s : Service) (i : Nat) : Action → Option Key
  | .advance j =>
    if j = i ∧ (s.act (.advance i)).debugger.channel.issued ≠ s.debugger.channel.issued then
      some s.debugger.channel.nextKey
    else none
  | _ => none

/-- The keys that the `i`-th evaluation is given in some actions. -/
def keysGiven (s : Service) (i : Nat) : List Action → List Key
  | [] => []
  | a :: later => (s.given i a).toList ++ (s.act a).keysGiven i later

/-- Of these keys at most the one that it holds is pending. -/
def Accounted (s : Service) (i : Nat) (keys : List Key) : Prop :=
  ∀ key ∈ keys, s.debugger.channel.HasIssued key ∧
    (key ∈ s.debugger.channel.keys → s.held? i = some key)

/-- What a step makes of the key that the evaluation holds. -/
theorem keyChange_of_act (keyed : s.Keyed) (here : s.evaluations[i]? = some e) {a : Action}
    (moves : Moves i a) : s.act a = s ∨ ∃ stage d,
      KeyChange s.debugger e.stage stage d ∧ s.act a = s.moved i e stage d := by
  rcases moved_of_act here moves with idle | ⟨stage, d, steps | expires, moved⟩
  · exact .inl idle
  · refine .inr ⟨stage, d, steps.keyChange fun key held => ?_, moved⟩
    exact keyed.pending i key ((held?_eq (stage?_eq here)).trans held)
  · exact .inr ⟨stage, d, expires.keyChange, moved⟩

/-- A key that stays pending stays with the evaluation. -/
theorem held?_act (keyed : s.Keyed) (held : s.held? i = some key) {a : Action}
    (pending : key ∈ (s.act a).debugger.channel.keys) : (s.act a).held? i = some key := by
  obtain ⟨stage, there, hold⟩ := Option.bind_eq_some_iff.1 held
  obtain ⟨e, here, rfl⟩ := Option.map_eq_some_iff.1 there
  by_cases moves : Moves i a
  · rcases keyChange_of_act keyed here moves with idle | ⟨stage, d, change, moved⟩
    · rw [idle, held]
    · rw [moved, held?_moved here, if_pos rfl]
      cases change with
      | keep channel same ask => rw [same, hold]
      | gain ask channel before after =>
        rw [hold] at before
        cases before
      | lose own channel before after =>
        rw [hold] at before
        cases before
        rw [moved, Service.moved, channel, Channel.keys_forget] at pending
        simp at pending
  · rw [held?_eq (stage?_eq (evaluation_act here moves)), hold]

theorem held?_of_given {a : Action} (keyed : s.Keyed) (h : s.given i a = some key) :
    key = s.debugger.channel.nextKey ∧ (s.act a).debugger.channel.HasIssued key ∧
      (s.act a).held? i = some key := by
  cases a with
  | attach | release | setRefusing | submit | setPolicy | close | start | expire => cases h
  | advance j =>
    rw [given] at h
    split at h
    · rename_i grows
      obtain ⟨rfl, grows⟩ := grows
      cases h
      refine ⟨rfl, ?_⟩
      cases here : s.evaluations[j]? with
      | none =>
        have idle : s.act (.advance j) = s := by
          rw [act, move?, here]
          rfl
        exact absurd (by rw [idle]) grows
      | some e =>
        rcases keyChange_of_act keyed here (.inl rfl) with idle | ⟨stage, d, change, moved⟩
        · exact absurd (by rw [idle]) grows
        · rw [moved, held?_moved here, if_pos rfl]
          rw [moved, Service.moved] at grows
          cases change with
          | keep channel | lose _ channel => exact absurd (congrArg Channel.issued channel) grows
          | gain ask channel before after =>
            refine ⟨?_, Stage.held?_of_ask? after⟩
            rw [Service.moved, channel]
            exact Channel.hasIssued_nextKey_register _ _
    · cases h

theorem Accounted.act {keys : List Key} (h : s.Accounted i keys) (keyed : s.Keyed) (a : Action) :
    (s.act a).Accounted i (keys ++ (s.given i a).toList) := by
  intro key mem
  rcases List.mem_append.1 mem with old | new
  · obtain ⟨issued, held⟩ := h key old
    refine ⟨(becomes_act s a).hasIssued issued, fun pending => held?_act keyed ?_ pending⟩
    exact held ((becomes_act s a).mem_keys issued pending)
  · obtain ⟨-, issued, held⟩ := held?_of_given keyed (Option.mem_toList.1 new)
    exact ⟨issued, fun _ => held⟩

theorem Accounted.run {keys : List Key} (h : s.Accounted i keys) (keyed : s.Keyed)
    (actions : List Action) : (s.run actions).Accounted i (keys ++ s.keysGiven i actions) := by
  induction actions generalizing s keys with
  | nil =>
    rw [keysGiven, List.append_nil]
    exact h
  | cons a actions ih =>
    rw [keysGiven, ← List.append_assoc]
    exact ih (h.act keyed a) (keyed.act a)

/-! ## Ended evaluations -/

/-- Who has ended runs in no session. -/
def Retired (s : Service) : Prop :=
  ∀ session, ∀ i ∈ s.debugger.sessions.running session, s.result? i = none

theorem Retired.new (settings : Settings) : (new settings).Retired := by
  intro session i mem
  cases mem

theorem Retired.moved (h : s.Retired) (ticketed : s.Ticketed) {held : Option Key}
    (here : s.evaluations[i]? = some e) (touch : Touches e held s.debugger d)
    (ends : ∀ result, stage = .ended result → i ∉ d.sessions.running e.session) :
    (s.moved i e stage d).Retired := by
  intro session j mem
  obtain ⟨-, -, running⟩ := touch.tickets
  have before := running session j mem
  rw [result?, evaluation_moved here]
  split
  · rename_i same
    subst same
    have own := ticketed.running session j before
    rw [session?, here] at own
    cases own
    rw [Option.bind_some, Evaluation.result?_eq_none_iff]
    exact fun result ended => ends result ended mem
  · exact h session j before

theorem Retired.act (h : s.Retired) (ticketed : s.Ticketed) (a : Action) : (s.act a).Retired := by
  refine act_induction s a fun u change => ?_
  cases change with
  | idle => exact h
  | outside out =>
    obtain ⟨-, -, running⟩ := out.tickets
    exact fun session i mem => h session i (running session i mem)
  | @start name code =>
    intro session i mem
    rw [result?, evaluation_append]
    split
    · rfl
    · rename_i old
      simp only [Debugger.start, Debugger.takeTicket, SessionStore.running_begin] at mem
      split at mem
      · rw [List.mem_append, List.mem_singleton, ticketed.count] at mem
        exact mem.elim (h name i) fun last => absurd last old
      · exact h session i mem
  | @advance i e stage d here steps =>
    refine h.moved ticketed here steps.touches ?_
    rintro result rfl mem
    rw [← ticketed.ticket i e here] at mem
    generalize e.stage = before at steps
    cases steps with
    | finish => simp [SessionStore.running_finish] at mem
  | @expire i e stage d here expires =>
    refine h.moved ticketed here (expires.touches (e := e)) ?_
    rintro result rfl
    generalize e.stage = before at expires
    cases expires

theorem Reachable.retired (h : s.Reachable) : s.Retired :=
  h.invariant .new fun _ a reachable retired => retired.act reachable.ticketed a

/-- With its steps an evaluation takes nobody else from a session, and adds nobody. -/
theorem filter_running_act (ticketed : s.Ticketed) {a : Action} (moves : Moves i a)
    (session : String) :
    ((s.act a).debugger.sessions.running session).filter (· != i) =
      (s.debugger.sessions.running session).filter (· != i) := by
  refine act_induction s a fun u change => ?_
  cases change with
  | idle => rfl
  | outside out => rcases moves with rfl | rfl <;> cases out
  | start => rcases moves with same | same <;> cases same
  | @advance j e stage d here steps =>
    rcases moves with same | same <;> cases same
    rw [← ticketed.ticket i e here]
    exact steps.touches.filter_running session
  | @expire j e stage d here expires =>
    rcases moves with same | same <;> cases same
    rw [← ticketed.ticket i e here]
    exact (expires.touches (e := e)).filter_running session

/-- When an evaluation has ended, no key that it was given is pending and it
    runs in no session; and in none of its steps, the last one among them, has
    it touched the keys or the running evaluations of others. -/
theorem cleans_up {settings : Settings} {actions : List Action} {result : Result}
    (ended : ((new settings).run actions).result? i = some result) :
    (∀ key ∈ (new settings).keysGiven i actions,
      key ∉ ((new settings).run actions).debugger.channel.keys) ∧
    (∀ session, i ∉ ((new settings).run actions).debugger.sessions.running session) ∧
    ∀ before a after, actions = before ++ a :: after → Moves i a →
      (∀ j key, j ≠ i → ((new settings).run before).held? j = some key →
        (((new settings).run before).act a).debugger.channel.find? key =
          ((new settings).run before).debugger.channel.find? key) ∧
      ∀ session,
        ((((new settings).run before).act a).debugger.sessions.running session).filter (· != i) =
          (((new settings).run before).debugger.sessions.running session).filter (· != i) := by
  have reachable : ∀ actions, ((new settings).run actions).Reachable := fun actions =>
    ⟨settings, actions, rfl⟩
  refine ⟨fun key mem pending => ?_, fun session mem => ?_, fun before a after _ moves => ⟨?_, ?_⟩⟩
  · have accounted : ((new settings).run actions).Accounted i
        ([] ++ (new settings).keysGiven i actions) :=
      Accounted.run (fun _ none => absurd none List.not_mem_nil) (.new settings) actions
    have held := (accounted key mem).2 pending
    obtain ⟨e, here, last⟩ := Option.bind_eq_some_iff.1 ended
    obtain ⟨stage, there, hold⟩ := Option.bind_eq_some_iff.1 held
    rw [stage?, here] at there
    cases there
    obtain ⟨ticket, session, stage⟩ := e
    cases stage with
    | running | ended => cases hold
    | paused => cases last
  · rw [(reachable actions).retired session i mem] at ended
    cases ended
  · intro j key other held
    have others : ¬ Moves j a := fun own => other (own.unique moves)
    rcases find?_act (reachable before).keyed held others with same | ⟨text, rfl⟩
    · exact same
    · rcases moves with same | same <;> cases same
  · exact filter_running_act (reachable before).ticketed moves

/-- An evaluation is prompted, its session is closed and begins anew, and it
    ends. -/
def abandoned : List Action :=
  [.attach ⟨1, 10⟩ false, .start "main" "#break 1"] ++ List.replicate 7 (.advance 0) ++
    [.close "main", .start "main" "nil", .advance 0, .advance 0]

theorem cleans_up_of_abandoned :
    ((new .default).run abandoned).result? 0 = some (.error .cancelled) ∧
      (new .default).keysGiven 0 abandoned = [.nth 1] ∧
      Key.nth 1 ∉ ((new .default).run abandoned).debugger.channel.keys ∧
      0 ∉ ((new .default).run abandoned).debugger.sessions.running "main" := by
  have ended : ((new .default).run abandoned).result? 0 = some (.error .cancelled) := rfl
  have given : (new .default).keysGiven 0 abandoned = [.nth 1] := rfl
  obtain ⟨gone, retired, -⟩ := cleans_up ended
  exact ⟨ended, given, gone _ (given ▸ List.mem_singleton_self _), retired "main"⟩

end Service

end Stepper.Debug
