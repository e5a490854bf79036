/-
  Who holds which key.

  An evaluation holds a key from the moment it is given out until the reply
  has been taken or the prompt is given up.  In every run a key is pending
  exactly as long as an evaluation holds it, no two hold the same one, and it
  is pending for the kind of input that is asked for (`Reachable.keyed`).
-/
import Stepper.Proofs.Service.Basic

namespace Stepper.Debug

open Stepper.Eval

/-- What a step makes of the key that an evaluation holds. -/
inductive KeyChange (d : Debugger) (s s' : Stage) (d' : Debugger) : Prop
  | keep (channel : d'.channel = d.channel) (held : s'.held? = s.held?)
    (ask : ∀ a, s'.ask? = some a → s.ask? = some a)
  | gain (ask : Ask) (channel : d'.channel = d.channel.register ask.kind) (before : s.held? = none)
    (after : s'.ask? = some (ask, d.channel.nextKey))
  | lose (key : Key) (channel : d'.channel = d.channel.forget key) (before : s.held? = some key)
    (after : s'.held? = none)

variable {e : Evaluation} {d d' : Debugger} {s s' : Stage}

theorem Goes.keyChange {site : Site} {value : Value} {next : Result → Run Result} {p q : Pause}
    (h : Goes (e.hit site value) d p q d') :
    KeyChange d (.paused site value next p) (.paused site value next q) d' := by
  cases h with
  | ask => exact .gain _ rfl rfl rfl
  | send => exact .keep rfl rfl fun _ h => h
  | take => exact .lose _ rfl rfl rfl
  | refuse | pass | unskip | find | wait | found | inject | eval | «show» =>
    exact .keep rfl rfl fun _ h => by cases h

theorem Leaves.keyChange {site : Site} {value : Value} {next : Result → Run Result} {p : Pause}
    {answer : Result} (held : ∀ key, p.held? = some key → key ∈ d.channel.keys)
    (h : Leaves (e.hit site value) d p answer d') :
    KeyChange d (.paused site value next p) (.running (next answer)) d' := by
  cases h with
  | refused | awaiting => exact .lose _ rfl rfl rfl
  | lost gone => exact absurd (held _ rfl) gone
  | proceed | out | quit | stopped | skip | alone | unattached | failed | noCommand | noExpression
  | next | inject | eval => exact .keep rfl rfl fun _ h => by cases h

theorem Steps.keyChange (held : ∀ key, s.held? = some key → key ∈ d.channel.keys)
    (h : Steps e d s s' d') : KeyChange d s s' d' := by
  cases h with
  | finish | poll | arrive | formStart => exact .keep rfl rfl fun _ h => by cases h
  | goes goes => exact goes.keyChange
  | leaves leaves => exact leaves.keyChange held

theorem Expires.keyChange (h : Expires d s s' d') : KeyChange d s s' d' := by
  cases h with
  | awaiting => exact .lose _ rfl rfl rfl

/-! ## The prompts of others -/

theorem Touches.find?_channel {held : Option Key} {key : Key} (touch : Touches e held d d')
    (sound : d.channel.Sound) (pending : key ∈ d.channel.keys) (other : held ≠ some key) :
    d'.channel.find? key = d.channel.find? key := by
  cases touch with
  | nothing | finish | startForm | offer | setPolicy | trip => rfl
  | register kind =>
    have different : key ≠ d.channel.nextKey := by
      rintro rfl
      exact sound.nextKey_notMem pending
    rw [Debugger.register, Channel.find?_register sound.nextKey_notMem, if_neg different]
  | @forget own held =>
    have different : key ≠ own := by
      rintro rfl
      exact other held
    rw [Debugger.forget, Channel.find?_forget, if_neg different]

theorem Touches.isTripped {held : Option Key} {ticket : Ticket} (touch : Touches e held d d')
    (h : d.isTripped ticket = true) : d'.isTripped ticket = true := by
  cases touch with
  | nothing | finish | startForm | register | offer | forget | setPolicy => exact h
  | trip =>
    simp only [Debugger.isTripped, Debugger.trip, List.contains_cons, Bool.or_eq_true] at h ⊢
    exact .inr h

namespace Service

theorem Outside.isTripped {a : Action} {ticket : Ticket} (out : Outside d a d')
    (h : d.isTripped ticket = true) : d'.isTripped ticket = true := by
  cases out with
  | attach | release | setRefusing | submit | setPolicy => exact h
  | close =>
    unfold Debugger.close
    split
    · exact h
    · simp only [Debugger.isTripped, List.contains_eq_mem, List.mem_append, decide_eq_true_eq] at h ⊢
      exact .inr h

/-- Who has been cancelled remains so. -/
theorem isTripped_of_isTripped {s : Service} {a : Action} {ticket : Ticket}
    (h : s.debugger.isTripped ticket = true) : (s.act a).debugger.isTripped ticket = true := by
  refine act_induction s a fun u change => ?_
  cases change with
  | idle | start => exact h
  | outside out => exact out.isTripped h
  | advance here steps => exact steps.touches.isTripped h
  | @expire i e stage d here expires => exact (expires.touches (e := e)).isTripped h

/-- The evaluations hold the pending keys, each its own. -/
structure Keyed (s : Service) : Prop where
  sound : s.debugger.channel.Sound
  pending : ∀ i key, s.held? i = some key → key ∈ s.debugger.channel.keys
  distinct : ∀ i j key, s.held? i = some key → s.held? j = some key → i = j
  owned : ∀ key ∈ s.debugger.channel.keys, ∃ i, s.held? i = some key
  kinds : ∀ i ask key p, s.ask? i = some (ask, key) →
    s.debugger.channel.find? key = some p → p.kind = ask.kind

variable {t : Service} {i : Nat}

theorem Keyed.new (settings : Settings) : (new settings).Keyed where
  sound := .empty
  pending _ _ h := by cases h
  distinct _ _ _ h := by cases h
  owned _ h := by cases h
  kinds _ _ _ _ h := by cases h

theorem Keyed.of_eq {u : Service} (h : t.Keyed) (sound : u.debugger.channel.Sound)
    (keys : u.debugger.channel.keys = t.debugger.channel.keys)
    (kinds : ∀ key p, u.debugger.channel.find? key = some p →
      ∃ q, t.debugger.channel.find? key = some q ∧ p.kind = q.kind)
    (held : ∀ j, u.held? j = t.held? j) (asks : ∀ j a, u.ask? j = some a → t.ask? j = some a) :
    u.Keyed where
  sound := sound
  pending j key hold := by
    rw [keys]
    exact h.pending j key (held j ▸ hold)
  distinct i j key hold hold' := h.distinct i j key (held i ▸ hold) (held j ▸ hold')
  owned key mem := by
    rw [keys] at mem
    obtain ⟨j, hold⟩ := h.owned key mem
    exact ⟨j, (held j).trans hold⟩
  kinds j ask key p asked found := by
    obtain ⟨q, found', same⟩ := kinds key p found
    rw [same]
    exact h.kinds j ask key q (asks j _ asked) found'

/-- What is done from outside leaves the channel alone, except for replies. -/
theorem Outside.channel {a : Action} (h : Outside d a d') :
    d'.channel = d.channel ∨ ∃ key text, a = .submit key text ∧
      d'.channel = d.channel.submit key text := by
  cases h with
  | submit => exact .inr ⟨_, _, rfl, rfl⟩
  | close =>
    unfold Debugger.close
    split <;> exact .inl rfl
  | attach | release | setRefusing | setPolicy => exact .inl rfl

theorem Keyed.outside (h : t.Keyed) {a : Action} (out : Outside t.debugger a d) :
    Keyed { t with debugger := d } := by
  rcases out.channel with same | ⟨key, text, -, submitted⟩
  · refine h.of_eq ?_ ?_ ?_ (fun _ => rfl) fun _ _ asked => asked
    · exact same ▸ h.sound
    · exact congrArg Channel.keys same
    · exact fun k p found => ⟨p, same ▸ found, rfl⟩
  · refine h.of_eq ?_ ?_ ?_ (fun _ => rfl) fun _ _ asked => asked
    · exact submitted ▸ h.sound.submit key text
    · exact submitted ▸ Channel.keys_submit
    · intro k p found
      simp only [submitted, Channel.find?_submit] at found
      split at found
      · rename_i same
        subst same
        obtain ⟨q, found', rfl⟩ := Option.map_eq_some_iff.1 found
        exact ⟨q, found', rfl⟩
      · exact ⟨p, found, rfl⟩

theorem held?_start (session code : String) (j : Nat) :
    (t.act (.start session code)).held? j = t.held? j := by
  rw [held?, held?, stage?_start]
  split
  · rename_i last
    rw [last, stage?_length]
    rfl
  · rfl

theorem ask?_start (session code : String) (j : Nat) :
    (t.act (.start session code)).ask? j = t.ask? j := by
  rw [ask?, ask?, stage?_start]
  split
  · rename_i last
    rw [last, stage?_length]
    rfl
  · rfl

theorem Keyed.start (h : t.Keyed) (session code : String) :
    (t.act (.start session code)).Keyed :=
  h.of_eq h.sound rfl (fun _ p found => ⟨p, found, rfl⟩) (held?_start session code)
    fun j _ asked => ask?_start session code j ▸ asked

theorem held?_moved {stage : Stage} (here : t.evaluations[i]? = some e) (j : Nat) :
    (t.moved i e stage d).held? j = if j = i then stage.held? else t.held? j := by
  rw [held?, stage?_moved here]
  split <;> rfl

theorem ask?_moved {stage : Stage} (here : t.evaluations[i]? = some e) (j : Nat) :
    (t.moved i e stage d).ask? j = if j = i then stage.ask? else t.ask? j := by
  rw [ask?, stage?_moved here]
  split <;> rfl

theorem held?_eq {stage : Stage} (here : t.stage? i = some stage) : t.held? i = stage.held? := by
  rw [held?, here, Option.bind_some]

theorem ask?_eq {stage : Stage} (here : t.stage? i = some stage) : t.ask? i = stage.ask? := by
  rw [ask?, here, Option.bind_some]

theorem stage?_eq (here : t.evaluations[i]? = some e) : t.stage? i = some e.stage := by
  rw [stage?, here, Option.map_some]

variable {stage : Stage}

theorem Keyed.keep (h : t.Keyed) (here : t.evaluations[i]? = some e)
    (channel : d.channel = t.debugger.channel) (held : stage.held? = e.stage.held?)
    (ask : ∀ a, stage.ask? = some a → e.stage.ask? = some a) : (t.moved i e stage d).Keyed := by
  refine h.of_eq ?_ ?_ ?_ ?_ ?_
  · exact channel ▸ h.sound
  · exact congrArg Channel.keys channel
  · exact fun k p found => ⟨p, channel ▸ found, rfl⟩
  · intro j
    rw [held?_moved here]
    split
    · rename_i same
      rw [same, held?_eq (stage?_eq here), held]
    · rfl
  · intro j a asked
    rw [ask?_moved here] at asked
    split at asked
    · rename_i same
      rw [same, ask?_eq (stage?_eq here)]
      exact ask a asked
    · exact asked

/-- A key is given out. -/
theorem Keyed.gain (h : t.Keyed) (here : t.evaluations[i]? = some e) {ask : Ask}
    (channel : d.channel = t.debugger.channel.register ask.kind) (before : e.stage.held? = none)
    (after : stage.ask? = some (ask, t.debugger.channel.nextKey)) : (t.moved i e stage d).Keyed := by
  -- the key is new, so nobody holds it yet
  have fresh : t.debugger.channel.nextKey ∉ t.debugger.channel.keys := h.sound.nextKey_notMem
  have unheld : ∀ j, t.held? j ≠ some t.debugger.channel.nextKey := fun j hold =>
    fresh (h.pending j _ hold)
  have held := Stage.held?_of_ask? after
  have keys : (t.moved i e stage d).debugger.channel.keys =
      t.debugger.channel.keys ++ [t.debugger.channel.nextKey] := by
    rw [Service.moved, channel, Channel.keys_register]
  constructor
  case sound =>
    rw [Service.moved, channel]
    exact h.sound.register ask.kind
  case pending =>
    intro j key hold
    rw [held?_moved here] at hold
    rw [keys, List.mem_append, List.mem_singleton]
    split at hold
    · rw [held] at hold
      exact .inr (Option.some_inj.1 hold).symm
    · exact .inl (h.pending j key hold)
  case distinct =>
    intro j k key hold hold'
    rw [held?_moved here] at hold hold'
    split at hold <;> split at hold'
    · rename_i first second
      rw [first, second]
    · rw [held] at hold
      exact absurd (hold'.trans hold.symm) (unheld k)
    · rw [held] at hold'
      exact absurd (hold.trans hold'.symm) (unheld j)
    · exact h.distinct j k key hold hold'
  case owned =>
    intro key mem
    rw [keys, List.mem_append, List.mem_singleton] at mem
    rcases mem with mem | rfl
    · obtain ⟨j, hold⟩ := h.owned key mem
      have different : j ≠ i := by
        rintro rfl
        rw [held?_eq (stage?_eq here), before] at hold
        cases hold
      exact ⟨j, by rw [held?_moved here, if_neg different, hold]⟩
    · exact ⟨i, by rw [held?_moved here, if_pos rfl, held]⟩
  case kinds =>
    intro j ask' key p asked found
    rw [ask?_moved here] at asked
    rw [Service.moved, channel, Channel.find?_register fresh] at found
    split at asked
    · rw [after] at asked
      cases asked
      rw [if_pos rfl] at found
      cases found
      rfl
    · have different : key ≠ t.debugger.channel.nextKey := by
        rintro rfl
        exact unheld j (held?_of_ask? asked)
      rw [if_neg different] at found
      exact h.kinds j ask' key p asked found

/-- A key is forgotten. -/
theorem Keyed.lose (h : t.Keyed) (here : t.evaluations[i]? = some e) {key : Key}
    (channel : d.channel = t.debugger.channel.forget key) (before : e.stage.held? = some key)
    (after : stage.held? = none) : (t.moved i e stage d).Keyed := by
  have keys : (t.moved i e stage d).debugger.channel.keys =
      t.debugger.channel.keys.filter (· != key) := by
    rw [Service.moved, channel, Channel.keys_forget]
  have own : ∀ j, t.held? j = some key → j = i := fun j hold =>
    h.distinct j i key hold ((held?_eq (stage?_eq here)).trans before)
  have unasked : stage.ask? = none := by
    cases asked : stage.ask? with
    | none => rfl
    | some a =>
      obtain ⟨ask, k⟩ := a
      rw [Stage.held?_of_ask? asked] at after
      cases after
  constructor
  case sound =>
    rw [Service.moved, channel]
    exact h.sound.forget key
  case pending =>
    intro j k hold
    rw [held?_moved here] at hold
    split at hold
    · rw [after] at hold
      cases hold
    · rename_i different
      rw [keys, List.mem_filter, bne_iff_ne]
      refine ⟨h.pending j k hold, ?_⟩
      rintro rfl
      exact different (own j hold)
  case distinct =>
    intro j k key' hold hold'
    rw [held?_moved here] at hold hold'
    split at hold
    · rw [after] at hold
      cases hold
    · split at hold'
      · rw [after] at hold'
        cases hold'
      · exact h.distinct j k key' hold hold'
  case owned =>
    intro k mem
    rw [keys, List.mem_filter, bne_iff_ne] at mem
    obtain ⟨mem, different⟩ := mem
    obtain ⟨j, hold⟩ := h.owned k mem
    have other : j ≠ i := by
      rintro rfl
      rw [held?_eq (stage?_eq here), before] at hold
      exact different (Option.some_inj.1 hold).symm
    exact ⟨j, by rw [held?_moved here, if_neg other, hold]⟩
  case kinds =>
    intro j ask k p asked found
    rw [ask?_moved here] at asked
    rw [Service.moved, channel, Channel.find?_forget] at found
    split at asked
    · rw [unasked] at asked
      cases asked
    · split at found
      · cases found
      · exact h.kinds j ask k p asked found

theorem Keyed.moved (h : t.Keyed) (here : t.evaluations[i]? = some e)
    (change : KeyChange t.debugger e.stage stage d) : (t.moved i e stage d).Keyed := by
  cases change with
  | keep channel held ask => exact h.keep here channel held ask
  | gain ask channel before after => exact h.gain here channel before after
  | lose key channel before after => exact h.lose here channel before after

theorem Keyed.act (h : t.Keyed) (a : Action) : (t.act a).Keyed := by
  refine act_induction t a fun u change => ?_
  cases change with
  | idle => exact h
  | outside out => exact h.outside out
  | start => exact h.start _ _
  | @advance i e stage d here steps =>
    refine h.moved here (steps.keyChange fun key hold => h.pending i key ?_)
    rw [held?, stage?, here]
    exact hold
  | expire here expires => exact h.moved here expires.keyChange

theorem Reachable.keyed (h : t.Reachable) : t.Keyed := h.induction .new fun _ a h => h.act a

theorem Keyed.run (h : t.Keyed) (actions : List Action) : (t.run actions).Keyed :=
  run_induction (fun _ a h => h.act a) h actions

theorem Keyed.after (h : t.Keyed) (schedule : Nat → Action) (n : Nat) :
    (t.after schedule n).Keyed :=
  after_induction (fun _ a h => h.act a) h schedule n

/-- The first reply to the prompt of an evaluation counts. -/
theorem reply?_submit (keyed : t.Keyed) {ask : Ask} {key : Key} (asked : t.ask? i = some (ask, key))
    (text : String) : (t.act (.submit key text)).debugger.reply? key =
      (t.debugger.reply? key).or (some (Reply.parse ask.kind text)) := by
  obtain ⟨p, found⟩ := Channel.mem_keys_iff.1 (keyed.pending i key (held?_of_ask? asked))
  have kind := keyed.kinds i ask key p asked found
  rw [act, Debugger.submit, Debugger.reply?, Debugger.reply?, Channel.find?_submit, if_pos rfl, found,
    ← kind]
  rfl

/-- What others do to the prompt of an evaluation: they reply to it, if anything. -/
theorem find?_act {a : Action} {key : Key} (keyed : t.Keyed) (held : t.held? i = some key)
    (others : ¬ Moves i a) :
    (t.act a).debugger.channel.find? key = t.debugger.channel.find? key ∨
      ∃ text, a = .submit key text := by
  have pending := keyed.pending i key held
  refine act_induction t a fun u change => ?_
  cases change with
  | idle | start => exact .inl rfl
  | outside out =>
    rcases out.channel with same | ⟨key', text, rfl, submitted⟩
    · exact .inl (congrArg (Channel.find? · key) same)
    · by_cases same : key' = key
      · exact .inr ⟨text, same ▸ rfl⟩
      · refine .inl ?_
        simp only [submitted, Channel.find?_submit, if_neg (Ne.symm same)]
  | @advance j f stage d there steps =>
    refine .inl (steps.touches.find?_channel keyed.sound pending fun own => ?_)
    have same := keyed.distinct i j key held ((held?_eq (stage?_eq there)).trans own)
    exact others (.inl (same ▸ rfl))
  | @expire j f stage d there expires =>
    refine .inl ((expires.touches (e := f)).find?_channel keyed.sound pending fun own => ?_)
    have same := keyed.distinct i j key held ((held?_eq (stage?_eq there)).trans own)
    exact others (.inr (same ▸ rfl))

theorem Outside.reply? {x : Action} (out : Outside d x d') (key : Key) :
    d'.reply? key = d.reply? key ∨ d.reply? key = none := by
  rcases out.channel with same | ⟨key', text, -, submitted⟩
  · exact .inl (by rw [Debugger.reply?, same, Debugger.reply?])
  · rw [Debugger.reply?, submitted, Channel.find?_submit, Debugger.reply?]
    split
    · rename_i same
      subst same
      cases d.channel.find? key with
      | none => exact .inl rfl
      | some p =>
        obtain ⟨k, kind, reply⟩ := p
        cases reply with
        | none => exact .inr rfl
        | some reply => exact .inl rfl
    · exact .inl rfl

/-- Others leave a reply that is there as it is. -/
theorem reply?_act {a : Action} {key : Key} (keyed : t.Keyed) (held : t.held? i = some key)
    (others : ¬ Moves i a) :
    (t.act a).debugger.reply? key = t.debugger.reply? key ∨ t.debugger.reply? key = none := by
  rcases find?_act keyed held others with same | ⟨text, rfl⟩
  · exact .inl (by rw [Debugger.reply?, same, Debugger.reply?])
  · exact Outside.submit.reply? key

end Service

end Stepper.Debug
