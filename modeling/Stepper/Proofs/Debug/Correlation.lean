/-
  Replies and the prompts they answer.

  Many evaluations and clients use the channel at a time.  An `Act` is what
  one of them does in one go: a prompt goes out in two acts, since its key can
  be answered while it is on its way, and an await that finds no reply waits
  until it is woken or its time is over.  `Traffic.run` plays any sequence of
  acts and keeps a log of what they gave.

  Whatever is done in whatever order, the log and the channel are `Correlated`
  (`correlated_run`): a key is given out once, its first reply counts and no
  other, the reply is taken once and by the first await that looks, and the
  channel holds the keys that the log leaves open.
-/
import Stepper.Proofs.Debug.Channel

namespace Stepper.Debug

open Stepper.Eval

/-! ## Acts -/

/-- Something that is done at the channel in one go. -/
inductive Act where
  /-- A key is given out, and its prompt is on its way. -/
  | request (kind : InputKind)
  /-- The prompt of a key has been accepted. -/
  | deliver (key : Key)
  /-- The prompt of a key is not accepted; the request fails. -/
  | refuse (key : Key)
  | submit (key : Key) (text : String)
  /-- An await for a key begins, on behalf of an evaluation that has been
      cancelled or not. -/
  | await (key : Key) (tripped : Bool)
  /-- An await that waits for a key is woken. -/
  | wake (key : Key) (tripped : Bool)
  /-- The time of an await that waits for a key is over. -/
  | expire (key : Key)

/-- What an act gives. -/
inductive Answer where
  | granted (key : Key)
  | delivered
  | refused
  | recorded (counts : Bool)
  | taken (reply : Except Error Reply)
  | cancelled
  | timedOut
  | notPending
  | waiting
  /-- Nobody could do this. -/
  | impossible

/-- Acts and what they gave, oldest first. -/
abbrev Log := List (Act × Answer)

/-- The channel and what is going on at it. -/
structure Traffic where
  channel : Channel
  /-- The keys whose prompts are on their way. -/
  underway : List Key
  /-- The keys that are waited for, each as often as there are awaits. -/
  waiting : List Key
  log : Log

namespace Traffic

/-- Before anything is done. -/
def start : Traffic := ⟨.empty, [], [], []⟩

/-- An await looks for the reply to a key. -/
def look (t : Traffic) (key : Key) (tripped : Bool) : Answer × Traffic :=
  match t.channel.take key with
  | .taken reply channel => (.taken reply, { t with channel })
  | .notPending => (.notPending, t)
  | .unanswered =>
    if tripped then (.cancelled, { t with channel := t.channel.forget key })
    else (.waiting, { t with waiting := key :: t.waiting })

/-- An await looks for the reply to a key for the last time. -/
def giveUp (t : Traffic) (key : Key) : Answer × Traffic :=
  match t.channel.take key with
  | .taken reply channel => (.taken reply, { t with channel })
  | .notPending | .unanswered => (.timedOut, { t with channel := t.channel.forget key })

/-- Does an act. -/
def perform (t : Traffic) : Act → Answer × Traffic
  | .request kind =>
    (.granted t.channel.nextKey,
     { t with
       channel := t.channel.register kind
       underway := t.channel.nextKey :: t.underway })
  | .deliver key =>
    if key ∈ t.underway then (.delivered, { t with underway := t.underway.erase key })
    else (.impossible, t)
  | .refuse key =>
    if key ∈ t.underway then
      (.refused,
       { t with channel := t.channel.forget key, underway := t.underway.erase key })
    else (.impossible, t)
  | .submit key text =>
    (.recorded (t.channel.accepts key), { t with channel := t.channel.submit key text })
  | .await key tripped => t.look key tripped
  | .wake key tripped =>
    if key ∈ t.waiting then { t with waiting := t.waiting.erase key }.look key tripped
    else (.impossible, t)
  | .expire key =>
    if key ∈ t.waiting then { t with waiting := t.waiting.erase key }.giveUp key
    else (.impossible, t)

/-- Does an act and notes what it gave. -/
def act (t : Traffic) (a : Act) : Traffic :=
  { (t.perform a).2 with log := t.log ++ [(a, (t.perform a).1)] }

/-- Does some acts, one after another. -/
def run (acts : List Act) : Traffic := acts.foldl act start

end Traffic

/-! ## Reading the log -/

/-- The key for which an act awaits a reply. -/
def Act.awaited? : Act → Option Key
  | .await key _ | .wake key _ | .expire key => some key
  | _ => none

/-- The key that a request was given. -/
def Answer.key? : Answer → Option Key
  | .granted key => some key
  | _ => none

/-- Whether an await that gives this has put an end to the key. -/
def Answer.closes : Answer → Bool
  | .taken _ | .cancelled | .timedOut => true
  | _ => false

/-- Whether an await that gives this has got the reply. -/
def Answer.takes : Answer → Bool
  | .taken _ => true
  | _ => false

namespace Log

variable (log : Log) (key : Key)

/-- The key was given to a request for such input. -/
def Requested (kind : InputKind) : Prop := (Act.request kind, Answer.granted key) ∈ log

/-- The request for the key failed. -/
def Refused : Prop := (Act.refuse key, Answer.refused) ∈ log

/-- This reply to the key counted. -/
def Recorded (text : String) : Prop := (Act.submit key text, Answer.recorded true) ∈ log

/-- An await took the reply to the key, was cancelled, or ran out of time. -/
def Closed : Prop := ∃ e ∈ log, e.1.awaited? = some key ∧ e.2.closes = true

/-- The key was given out, its request did not fail, and no await put an end
    to it. -/
def Open : Prop := (∃ kind, log.Requested key kind) ∧ ¬ log.Refused key ∧ ¬ log.Closed key

/-- The keys given out. -/
def keys : List Key := log.filterMap (·.2.key?)

/-- The replies to the key that counted. -/
def recordings : Log :=
  log.filter fun
    | (.submit k _, .recorded true) => k == key
    | _ => false

/-- The awaits that got the reply to the key. -/
def takings : Log := log.filter fun e => e.1.awaited? == some key && e.2.takes

end Log

/-! ## Longer logs -/

/-- The entry puts an end to the key. -/
def Ends (e : Act × Answer) (key : Key) : Prop :=
  e = (.refuse key, .refused) ∨ (e.1.awaited? = some key ∧ e.2.closes = true)

/-- Answers after which everything is as before. -/
def Answer.silent : Answer → Bool
  | .delivered | .impossible | .notPending | .waiting | .recorded false => true
  | _ => false

theorem Answer.closes_of_silent {answer : Answer} (quiet : answer.silent = true) :
    answer.closes = false := by
  cases answer <;> first | rfl | cases quiet

namespace Log

variable {log : Log} {key other : Key} {e : Act × Answer} {kind : InputKind} {text : String}

theorem requested_append :
    (log ++ [e]).Requested key kind ↔ log.Requested key kind ∨ e = (.request kind, .granted key) := by
  simp [Requested, eq_comm]

theorem recorded_append :
    (log ++ [e]).Recorded key text
      ↔ log.Recorded key text ∨ e = (.submit key text, .recorded true) := by
  simp [Recorded, eq_comm]

/-- The log puts an end to the key. -/
def Over (log : Log) (key : Key) : Prop := ∃ e ∈ log, Ends e key

theorem over_iff : log.Over key ↔ log.Refused key ∨ log.Closed key := by
  constructor
  · rintro ⟨e, mem, rfl | ends⟩
    · exact .inl mem
    · exact .inr ⟨e, mem, ends⟩
  · rintro (mem | ⟨e, mem, ends⟩)
    · exact ⟨_, mem, .inl rfl⟩
    · exact ⟨e, mem, .inr ends⟩

theorem over_append : (log ++ [e]).Over key ↔ log.Over key ∨ Ends e key := by
  simp [Over, or_and_right, exists_or]

theorem open_iff : log.Open key ↔ (∃ kind, log.Requested key kind) ∧ ¬ log.Over key := by
  rw [Open, over_iff, not_or]

theorem keys_append : (log ++ [e]).keys = log.keys ++ e.2.key?.toList := by
  rw [keys, List.filterMap_append]
  congr 1

theorem recordings_append :
    (log ++ [e]).recordings key = log.recordings key ++ Log.recordings [e] key :=
  List.filter_append ..

theorem takings_append : (log ++ [e]).takings key = log.takings key ++ Log.takings [e] key :=
  List.filter_append ..

theorem recordings_eq_nil (h : ∀ text, ¬ log.Recorded key text) : log.recordings key = [] := by
  rw [recordings, List.filter_eq_nil_iff]
  rintro ⟨a, answer⟩ mem counts
  split at counts
  · rename_i same
    cases same
    rw [eq_of_beq counts] at mem
    exact h _ mem
  · cases counts

theorem takings_eq_nil (h : ¬ log.Over key) : log.takings key = [] := by
  rw [takings, List.filter_eq_nil_iff]
  rintro ⟨a, answer⟩ mem got
  rw [Bool.and_eq_true, beq_iff_eq] at got
  refine h ⟨(a, answer), mem, .inr ⟨got.1, ?_⟩⟩
  cases answer <;> first | rfl | cases got.2

end Log

/-! ## The channel and the log -/

/-- The channel is as the log tells. -/
structure Matches (c : Channel) (log : Log) : Prop where
  sound : c.Sound
  requested : ∀ key kind, log.Requested key kind → c.HasIssued key
  recorded : ∀ key text, log.Recorded key text → c.HasIssued key
  ended : ∀ key, log.Over key → c.HasIssued key
  pending : ∀ key, key ∈ c.keys ↔ log.Open key
  kinds : ∀ key p, c.find? key = some p → ∀ kind, log.Requested key kind → kind = p.kind
  replies : ∀ key p, c.find? key = some p → ∀ reply, p.reply = some reply ↔
    ∃ text, log.Recorded key text ∧ reply = Reply.parse p.kind text
  keys_nodup : log.keys.Nodup
  keys_issued : ∀ key ∈ log.keys, c.HasIssued key
  recorded_once : ∀ key, (log.recordings key).length ≤ 1
  taken_once : ∀ key, (log.takings key).length ≤ 1

namespace Matches

variable {c : Channel} {log : Log} {key : Key} {e : Act × Answer}

theorem empty : Matches .empty [] where
  sound := .empty
  requested _ _ h := by cases h
  recorded _ _ h := by cases h
  ended _ h := by
    obtain ⟨e, mem, -⟩ := h
    cases mem
  pending key := by simp [Channel.keys, Channel.empty, Log.Open, Log.Requested]
  kinds _ _ h := by cases h
  replies _ _ h := by cases h
  keys_nodup := .nil
  keys_issued _ h := by cases h
  recorded_once _ := by simp [Log.recordings]
  taken_once _ := by simp [Log.takings]

/-- An entry of which no key is the subject changes nothing. -/
theorem silent (h : Matches c log) (quiet : e.2.silent = true) : Matches c (log ++ [e]) := by
  obtain ⟨a, answer⟩ := e
  have not_request : ∀ kind key, (a, answer) ≠ (.request kind, .granted key) := by
    rintro kind key ⟨⟩
    cases quiet
  have not_record : ∀ key text, (a, answer) ≠ (.submit key text, .recorded true) := by
    rintro key text ⟨⟩
    cases quiet
  have not_end : ∀ key, ¬ Ends (a, answer) key := by
    rintro key (⟨⟨⟩⟩ | ⟨-, closes⟩)
    · cases quiet
    · rw [Answer.closes_of_silent quiet] at closes
      cases closes
  have no_key : answer.key? = none := by
    cases answer <;> first | rfl | cases quiet
  have no_recording : ∀ key, Log.recordings [(a, answer)] key = [] := fun key =>
    Log.recordings_eq_nil fun text mem => not_record key text (List.mem_singleton.1 mem).symm
  have no_taking : ∀ key, Log.takings [(a, answer)] key = [] := fun key =>
    Log.takings_eq_nil fun ⟨e', mem, ends⟩ => not_end key (List.mem_singleton.1 mem ▸ ends)
  constructor
  case sound => exact h.sound
  all_goals
    simp only [Log.requested_append, Log.recorded_append, Log.over_append, Log.open_iff,
      Log.keys_append, Log.recordings_append, Log.takings_append, not_request, not_record, not_end,
      no_key, no_recording, no_taking, or_false, Option.toList_none, List.append_nil]
  case requested => exact h.requested
  case recorded => exact h.recorded
  case ended => exact h.ended
  case pending =>
    intro key
    rw [h.pending, Log.open_iff]
  case kinds => exact h.kinds
  case replies => exact h.replies
  case keys_nodup => exact h.keys_nodup
  case keys_issued => exact h.keys_issued
  case recorded_once => exact h.recorded_once
  case taken_once => exact h.taken_once

theorem request (h : Matches c log) (kind : InputKind) :
    Matches (c.register kind) (log ++ [(.request kind, .granted c.nextKey)]) := by
  -- the log does not mention the key that is given out
  have fresh : ¬ c.HasIssued c.nextKey := c.not_hasIssued_nextKey
  have unrequested : ∀ kind, ¬ log.Requested c.nextKey kind := fun kind asked =>
    fresh (h.requested _ kind asked)
  have unrecorded : ∀ text, ¬ log.Recorded c.nextKey text := fun text counts =>
    fresh (h.recorded _ text counts)
  have notOver : ¬ log.Over c.nextKey := fun ended => fresh (h.ended _ ended)
  have not_end : ∀ key, ¬ Ends (.request kind, .granted c.nextKey) key := by
    rintro key (⟨⟨⟩⟩ | ⟨⟨⟩, -⟩)
  have no_recording : ∀ key, Log.recordings [(.request kind, .granted c.nextKey)] key = [] :=
    fun key => rfl
  have no_taking : ∀ key, Log.takings [(.request kind, .granted c.nextKey)] key = [] :=
    fun key => rfl
  constructor
  case sound => exact h.sound.register kind
  all_goals
    simp only [Log.requested_append, Log.recorded_append, Log.over_append, Log.open_iff,
      Log.keys_append, Log.recordings_append, Log.takings_append, not_end, no_recording, no_taking,
      or_false, List.append_nil, Prod.mk.injEq, Act.request.injEq, Answer.granted.injEq,
      reduceCtorEq, and_false, Answer.key?, Option.toList_some]
  case requested =>
    rintro key kind' (asked | ⟨-, rfl⟩)
    · exact (h.requested key kind' asked).register
    · exact Channel.hasIssued_nextKey_register c kind
  case recorded => exact fun key text counts => (h.recorded key text counts).register
  case ended => exact fun key ended => (h.ended key ended).register
  case pending =>
    intro key
    rw [Channel.keys_register, List.mem_append, List.mem_singleton, h.pending, Log.open_iff]
    by_cases same : key = c.nextKey
    · subst same
      simp [unrequested, notOver]
    · simp [same, Ne.symm same]
  case kinds =>
    intro key p found kind'
    rw [Channel.find?_register h.sound.nextKey_notMem] at found
    split at found
    · rename_i same
      subst same
      cases found
      rintro (asked | ⟨rfl, -⟩)
      · exact absurd asked (unrequested kind')
      · rfl
    · rename_i different
      rintro (asked | ⟨-, same⟩)
      · exact h.kinds key p found kind' asked
      · exact absurd same.symm different
  case replies =>
    intro key p found reply
    rw [Channel.find?_register h.sound.nextKey_notMem] at found
    split at found
    · rename_i same
      subst same
      cases found
      simp [unrecorded]
    · exact h.replies key p found reply
  case keys_nodup =>
    rw [List.nodup_append]
    refine ⟨h.keys_nodup, List.pairwise_singleton _ _, ?_⟩
    rintro key given key' last rfl
    rw [List.mem_singleton] at last
    subst last
    exact fresh (h.keys_issued _ given)
  case keys_issued =>
    intro key given
    rw [List.mem_append, List.mem_singleton] at given
    rcases given with given | rfl
    · exact (h.keys_issued key given).register
    · exact Channel.hasIssued_nextKey_register c kind
  case recorded_once => exact h.recorded_once
  case taken_once => exact h.taken_once

theorem submit (h : Matches c log) (text : String) (accepted : c.accepts key = true) :
    Matches (c.submit key text) (log ++ [(.submit key text, .recorded true)]) := by
  obtain ⟨p, found, unanswered⟩ := Channel.accepts_iff.1 accepted
  have issued : c.HasIssued key := h.sound.issued key (Channel.mem_keys_iff.2 ⟨p, found⟩)
  have unrecorded : ∀ text, ¬ log.Recorded key text := by
    intro text counts
    have := (h.replies key p found _).2 ⟨text, counts, rfl⟩
    rw [unanswered] at this
    cases this
  have not_end : ∀ k, ¬ Ends (.submit key text, .recorded true) k := by
    rintro k (⟨⟨⟩⟩ | ⟨⟨⟩, -⟩)
  have no_taking : ∀ k, Log.takings [(.submit key text, .recorded true)] k = [] := fun k => rfl
  constructor
  case sound => exact h.sound.submit key text
  all_goals
    simp only [Log.requested_append, Log.recorded_append, Log.over_append, Log.open_iff,
      Log.keys_append, Log.recordings_append, Log.takings_append, not_end, no_taking,
      or_false, List.append_nil, Prod.mk.injEq, Act.submit.injEq, reduceCtorEq, false_and,
      and_true, Answer.key?, Option.toList_none, Channel.hasIssued_submit_iff, Channel.keys_submit]
  case requested => exact h.requested
  case recorded =>
    rintro k text' (counts | ⟨rfl, -⟩)
    · exact h.recorded k text' counts
    · exact issued
  case ended => exact h.ended
  case pending =>
    intro k
    rw [h.pending, Log.open_iff]
  case kinds =>
    intro k q found' kind asked
    rw [Channel.find?_submit] at found'
    split at found'
    · rename_i same
      subst same
      rw [found] at found'
      cases found'
      exact h.kinds k p found kind asked
    · exact h.kinds k q found' kind asked
  case replies =>
    intro k q found' reply
    rw [Channel.find?_submit] at found'
    split at found'
    · rename_i same
      subst same
      rw [found, Option.map_some, unanswered] at found'
      cases found'
      simp [unrecorded, eq_comm]
    · rename_i different
      rw [h.replies k q found' reply]
      simp [Ne.symm different]
  case keys_nodup => exact h.keys_nodup
  case keys_issued => exact h.keys_issued
  case recorded_once =>
    intro k
    by_cases same : key = k
    · subst same
      rw [Log.recordings_eq_nil unrecorded]
      exact List.length_filter_le _ _
    · have : Log.recordings [(.submit key text, .recorded true)] k = [] := by
        simp [Log.recordings, same]
      rw [this, List.append_nil]
      exact h.recorded_once k
  case taken_once => exact h.taken_once

/-- An entry that puts an end to a key, which the channel forgets. -/
theorem forget (h : Matches c log) (ends : Ends e key) (issued : c.HasIssued key)
    (held : e.2.takes = true → key ∈ c.keys) : Matches (c.forget key) (log ++ [e]) := by
  have not_request : ∀ k kind, e ≠ (.request kind, .granted k) := by
    rintro k kind rfl
    obtain ⟨⟨⟩⟩ | ⟨⟨⟩, -⟩ := ends
  have not_record : ∀ k text, e ≠ (.submit k text, .recorded true) := by
    rintro k text rfl
    obtain ⟨⟨⟩⟩ | ⟨⟨⟩, -⟩ := ends
  have ends_iff : ∀ k, Ends e k ↔ k = key := by
    intro k
    constructor
    · rintro (rfl | ⟨awaited, -⟩)
      · obtain same | ⟨⟨⟩, -⟩ := ends
        cases same
        rfl
      · obtain rfl | ⟨awaited', -⟩ := ends
        · cases awaited
        · exact Option.some_inj.1 (awaited.symm.trans awaited')
    · rintro rfl
      exact ends
  have no_key : e.2.key? = none := by
    obtain rfl | ⟨-, closes⟩ := ends
    · rfl
    · revert closes
      cases e.2 <;> first | exact fun _ => rfl | exact fun h => by cases h
  have no_recording : ∀ k, Log.recordings [e] k = [] := fun k =>
    Log.recordings_eq_nil fun text mem => not_record k text (List.mem_singleton.1 mem).symm
  constructor
  case sound => exact h.sound.forget key
  all_goals
    simp only [Log.requested_append, Log.recorded_append, Log.over_append, Log.open_iff,
      Log.keys_append, Log.recordings_append, Log.takings_append, not_request, not_record,
      ends_iff, no_recording, no_key, or_false, List.append_nil, Option.toList_none]
  case requested => exact h.requested
  case recorded => exact h.recorded
  case ended =>
    rintro k (before | rfl)
    · exact h.ended k before
    · exact issued
  case pending =>
    intro k
    rw [Channel.keys_forget, List.mem_filter, h.pending, Log.open_iff, bne_iff_ne, not_or, and_assoc]
  case kinds =>
    intro k p found
    rw [Channel.find?_forget] at found
    split at found
    · cases found
    · exact h.kinds k p found
  case replies =>
    intro k p found
    rw [Channel.find?_forget] at found
    split at found
    · cases found
    · exact h.replies k p found
  case keys_nodup => exact h.keys_nodup
  case keys_issued => exact h.keys_issued
  case recorded_once => exact h.recorded_once
  case taken_once =>
    intro k
    by_cases taken : e.2.takes = true ∧ k = key
    · obtain ⟨taken, rfl⟩ := taken
      have notOver : ¬ log.Over k := (Log.open_iff.1 ((h.pending k).1 (held taken))).2
      rw [Log.takings_eq_nil notOver]
      exact List.length_filter_le _ _
    · have : Log.takings [e] k = [] := by
        rw [Log.takings, List.filter_eq_nil_iff]
        intro e' mem got
        rw [List.mem_singleton.1 mem, Bool.and_eq_true, beq_iff_eq] at got
        obtain ⟨awaited, takes⟩ := got
        have closes : e.2.closes = true := by
          revert takes
          cases e.2 <;> first | exact fun _ => rfl | exact fun h => by cases h
        exact taken ⟨takes, (ends_iff k).1 (.inr ⟨awaited, closes⟩)⟩
      rw [this, List.append_nil]
      exact h.taken_once k

end Matches

/-! ## What an act does -/

/-- What becomes of a channel in an act, and the entry for it. -/
inductive Effect (c : Channel) : Channel → Act × Answer → Prop
  | silent {e} (quiet : e.2.silent = true) : Effect c c e
  | request (kind : InputKind) :
    Effect c (c.register kind) (.request kind, .granted c.nextKey)
  | submit {key : Key} (text : String) (accepted : c.accepts key = true) :
    Effect c (c.submit key text) (.submit key text, .recorded true)
  | forget {key : Key} {e} (ends : Ends e key) (issued : c.HasIssued key)
    (held : e.2.takes = true → key ∈ c.keys) : Effect c (c.forget key) e

namespace Effect

variable {c c' : Channel} {e : Act × Answer} {key : Key} {log : Log}

theorem hasIssued (eff : Effect c c' e) (h : c.HasIssued key) : c'.HasIssued key := by
  cases eff with
  | silent => exact h
  | request => exact h.register
  | submit => exact Channel.hasIssued_submit_iff.2 h
  | forget => exact h

theorem keeps (eff : Effect c c' e) (h : Matches c log) : Matches c' (log ++ [e]) := by
  cases eff with
  | silent quiet => exact h.silent quiet
  | request kind => exact h.request kind
  | submit text accepted => exact h.submit text accepted
  | forget ends issued held => exact h.forget ends issued held

end Effect

namespace Traffic

variable {t : Traffic} {key : Key} {a : Act} {tripped : Bool}

/-- What holds all the time. -/
structure Held (t : Traffic) : Prop where
  log : Matches t.channel t.log
  underway : ∀ key ∈ t.underway, t.channel.HasIssued key
  waiting : ∀ key ∈ t.waiting, t.channel.HasIssued key

theorem Held.start : Held .start where
  log := .empty
  underway _ h := by cases h
  waiting _ h := by cases h

theorem effect_look (sound : t.channel.Sound) (awaits : a.awaited? = some key) :
    Effect t.channel (t.look key tripped).2.channel (a, (t.look key tripped).1) := by
  unfold look
  split
  · rename_i reply channel looked
    obtain ⟨⟨p, found, -⟩, rfl⟩ := Channel.take_eq_taken_iff.1 looked
    have held : key ∈ t.channel.keys := Channel.mem_keys_iff.2 ⟨p, found⟩
    exact .forget (.inr ⟨awaits, rfl⟩) (sound.issued key held) fun _ => held
  · exact .silent rfl
  · rename_i looked
    obtain ⟨p, found, -⟩ := Channel.accepts_iff.1 (Channel.take_eq_unanswered_iff.1 looked)
    have held : key ∈ t.channel.keys := Channel.mem_keys_iff.2 ⟨p, found⟩
    split
    · exact .forget (.inr ⟨awaits, rfl⟩) (sound.issued key held) fun _ => held
    · exact .silent rfl

theorem effect_giveUp (issued : t.channel.HasIssued key)
    (awaits : a.awaited? = some key) :
    Effect t.channel (t.giveUp key).2.channel (a, (t.giveUp key).1) := by
  unfold giveUp
  split
  · rename_i reply channel looked
    obtain ⟨⟨p, found, -⟩, rfl⟩ := Channel.take_eq_taken_iff.1 looked
    have held : key ∈ t.channel.keys := Channel.mem_keys_iff.2 ⟨p, found⟩
    exact .forget (.inr ⟨awaits, rfl⟩) issued fun _ => held
  all_goals exact .forget (.inr ⟨awaits, rfl⟩) issued fun h => by cases h

theorem waiting_look (sound : t.channel.Sound) {k : Key}
    (h : k ∈ (t.look key tripped).2.waiting) : k ∈ t.waiting ∨ t.channel.HasIssued k := by
  unfold look at h
  split at h
  · exact .inl h
  · exact .inl h
  · rename_i looked
    split at h
    · exact .inl h
    · rcases List.mem_cons.1 h with rfl | h
      · obtain ⟨p, found, -⟩ := Channel.accepts_iff.1 (Channel.take_eq_unanswered_iff.1 looked)
        exact .inr (sound.issued _ (Channel.mem_keys_iff.2 ⟨p, found⟩))
      · exact .inl h

theorem underway_look : (t.look key tripped).2.underway = t.underway := by
  unfold look
  split
  · rfl
  · rfl
  · split <;> rfl

theorem waiting_giveUp : (t.giveUp key).2.waiting = t.waiting := by
  unfold giveUp
  split <;> rfl

theorem underway_giveUp : (t.giveUp key).2.underway = t.underway := by
  unfold giveUp
  split <;> rfl

/-- Every act has one of the effects. -/
theorem Held.effect (h : t.Held) (a : Act) :
    Effect t.channel (t.perform a).2.channel (a, (t.perform a).1) := by
  cases a with
  | request kind => exact .request kind
  | deliver key =>
    simp only [perform]
    split <;> exact .silent rfl
  | refuse key =>
    simp only [perform]
    split
    · rename_i mem
      exact .forget (.inl rfl) (h.underway key mem) fun h => by cases h
    · exact .silent rfl
  | submit key text =>
    simp only [perform]
    cases accepted : t.channel.accepts key with
    | true => exact .submit text accepted
    | false =>
      have same : t.channel.submit key text = t.channel := by
        rw [Channel.submit, accepted]
        rfl
      rw [same]
      exact .silent rfl
  | await key tripped => exact effect_look h.log.sound rfl
  | wake key tripped =>
    simp only [perform]
    split
    · exact effect_look (t := { t with waiting := t.waiting.erase key }) (a := .wake key tripped)
        h.log.sound rfl
    · exact .silent rfl
  | expire key =>
    simp only [perform]
    split
    · rename_i mem
      exact effect_giveUp (t := { t with waiting := t.waiting.erase key }) (a := .expire key)
        (h.waiting key mem) rfl
    · exact .silent rfl

theorem Held.underway_perform (h : t.Held) (mem : key ∈ (t.perform a).2.underway) :
    (t.perform a).2.channel.HasIssued key := by
  have keep : key ∈ t.underway → (t.perform a).2.channel.HasIssued key := fun before =>
    (h.effect a).hasIssued (h.underway key before)
  cases a with
  | request kind =>
    rcases List.mem_cons.1 mem with rfl | before
    · exact Channel.hasIssued_nextKey_register ..
    · exact keep before
  | deliver k | refuse k =>
    refine keep ?_
    simp only [perform] at mem
    split at mem
    · exact List.mem_of_mem_erase mem
    · exact mem
  | submit k text => exact keep mem
  | await k tripped =>
    refine keep ?_
    rw [perform, underway_look] at mem
    exact mem
  | wake k tripped =>
    refine keep ?_
    simp only [perform] at mem
    split at mem
    · rw [underway_look] at mem
      exact mem
    · exact mem
  | expire k =>
    refine keep ?_
    simp only [perform] at mem
    split at mem
    · rw [underway_giveUp] at mem
      exact mem
    · exact mem

theorem Held.waiting_perform (h : t.Held) (mem : key ∈ (t.perform a).2.waiting) :
    (t.perform a).2.channel.HasIssued key := by
  have keep : t.channel.HasIssued key → (t.perform a).2.channel.HasIssued key :=
    (h.effect a).hasIssued
  cases a with
  | request kind | submit k text => exact keep (h.waiting key mem)
  | deliver k | refuse k =>
    refine keep (h.waiting key ?_)
    simp only [perform] at mem
    split at mem <;> exact mem
  | await k tripped =>
    rcases waiting_look h.log.sound mem with before | issued
    · exact keep (h.waiting key before)
    · exact keep issued
  | wake k tripped =>
    refine keep ?_
    simp only [perform] at mem
    split at mem
    · rcases waiting_look (t := { t with waiting := t.waiting.erase k }) h.log.sound mem
        with before | issued
      · exact h.waiting key (List.mem_of_mem_erase before)
      · exact issued
    · exact h.waiting key mem
  | expire k =>
    refine keep (h.waiting key ?_)
    simp only [perform] at mem
    split at mem
    · rw [waiting_giveUp] at mem
      exact List.mem_of_mem_erase mem
    · exact mem

theorem Held.act (h : t.Held) (a : Act) : (t.act a).Held where
  log := (h.effect a).keeps h.log
  underway _ mem := h.underway_perform mem
  waiting _ mem := h.waiting_perform mem

theorem held_run (acts : List Act) : (run acts).Held := by
  suffices ∀ t : Traffic, t.Held → (acts.foldl Traffic.act t).Held from this start .start
  induction acts with
  | nil => exact fun t h => h
  | cons a acts ih => exact fun t h => ih (t.act a) (h.act a)

/-! ## Operations in several acts -/

theorem channel_request (t : Traffic) (net : Network) (client : Attachment) (kind : InputKind)
    (prompt : String) (display : Json.Object) :
    (t.channel.request net client kind prompt display).2.1 =
      ((t.act (.request kind)).act
        (if net.accepts client.connection then .deliver t.channel.nextKey
          else .refuse t.channel.nextKey)).channel := by
  by_cases accepts : net.accepts client.connection = true <;>
    simp [Channel.request, Attachment.push, accepts, act, perform]

theorem channel_giveUp : (t.giveUp key).2.channel = t.channel.forget key := by
  unfold giveUp
  split
  · rename_i looked
    exact (Channel.take_eq_taken_iff.1 looked).2
  all_goals rfl

theorem channel_expire (t : Traffic) (key : Key) :
    (t.act (.expire key)).channel =
      if key ∈ t.waiting then t.channel.forget key else t.channel := by
  rw [act, perform]
  split
  · exact channel_giveUp
  · rfl

theorem channel_await (t : Traffic) (key : Key) (tripped : Bool) (error : Error) :
    (t.channel.await key tripped error).2 =
      ((t.act (.await key tripped)).act (.expire key)).channel := by
  rw [channel_expire]
  obtain ⟨found, looked⟩ : ∃ found, t.channel.take key = found := ⟨_, rfl⟩
  simp only [act, perform, look, Channel.await, looked]
  cases found with
  | taken reply channel =>
    obtain ⟨-, rfl⟩ := Channel.take_eq_taken_iff.1 looked
    simp only [Channel.forget_forget, ite_self]
  | notPending =>
    have absent := Channel.take_eq_notPending_iff.1 looked
    simp only [Channel.forget_of_notMem absent, ite_self]
  | unanswered =>
    cases tripped with
    | true => simp only [if_true, Channel.forget_forget, ite_self]
    | false => simp

/-! ## Correlation -/

/-- The key for which an act looks, if somebody can do it. -/
def looksFor? (t : Traffic) : Act → Option Key
  | .await key _ => some key
  | .wake key _ | .expire key => if key ∈ t.waiting then some key else none
  | _ => none

theorem look_eq_taken_iff {reply : Except Error Reply} :
    (t.look key tripped).1 = .taken reply ↔
      ∃ p, t.channel.find? key = some p ∧ p.reply = some reply := by
  unfold look
  split
  · rename_i r channel looked
    have taken := Channel.take_eq_taken_iff.1 looked
    obtain ⟨⟨p, found, replied⟩, -⟩ := taken
    simp [found, replied]
  · rename_i looked
    have absent := Channel.find?_eq_none_iff.2 (Channel.take_eq_notPending_iff.1 looked)
    simp [absent]
  · rename_i looked
    obtain ⟨p, found, unanswered⟩ :=
      Channel.accepts_iff.1 (Channel.take_eq_unanswered_iff.1 looked)
    split <;> simp [found, unanswered]

theorem giveUp_eq_taken_iff {reply : Except Error Reply} :
    (t.giveUp key).1 = .taken reply ↔
      ∃ p, t.channel.find? key = some p ∧ p.reply = some reply := by
  unfold giveUp
  split
  · rename_i r channel looked
    obtain ⟨⟨p, found, replied⟩, -⟩ := Channel.take_eq_taken_iff.1 looked
    simp [found, replied]
  · rename_i looked
    have absent := Channel.find?_eq_none_iff.2 (Channel.take_eq_notPending_iff.1 looked)
    simp [absent]
  · rename_i looked
    obtain ⟨p, found, unanswered⟩ :=
      Channel.accepts_iff.1 (Channel.take_eq_unanswered_iff.1 looked)
    simp [found, unanswered]

theorem perform_eq_taken_iff {reply : Except Error Reply} (looks : t.looksFor? a = some key) :
    (t.perform a).1 = .taken reply ↔
      ∃ p, t.channel.find? key = some p ∧ p.reply = some reply := by
  cases a with
  | request | deliver | refuse | submit => cases looks
  | await k tripped =>
    cases looks
    exact look_eq_taken_iff
  | wake k tripped =>
    simp only [looksFor?] at looks
    split at looks
    · rename_i mem
      cases looks
      simp only [perform, if_pos mem]
      exact look_eq_taken_iff
    · cases looks
  | expire k =>
    simp only [looksFor?] at looks
    split at looks
    · rename_i mem
      cases looks
      simp only [perform, if_pos mem]
      exact giveUp_eq_taken_iff
    · cases looks

/-- Replies reach those who await them, once. -/
structure Correlated (t : Traffic) : Prop where
  /-- No key is given out twice. -/
  keys_nodup : t.log.keys.Nodup
  /-- The channel holds the keys that are open, each once. -/
  pending : ∀ key, key ∈ t.channel.keys ↔ t.log.Open key
  pending_nodup : t.channel.keys.Nodup
  /-- The first reply to an open key counts. -/
  counts : ∀ key text, (t.perform (.submit key text)).1 = .recorded true ↔
    t.log.Open key ∧ ∀ earlier, ¬ t.log.Recorded key earlier
  /-- At most one reply to a key has counted. -/
  counted_once : ∀ key, (t.log.recordings key).length ≤ 1
  /-- Whoever looks for the reply to a key gets it if it is there, also when
      cancelled or out of time. -/
  gets : ∀ a key reply, t.looksFor? a = some key →
    ((t.perform a).1 = .taken reply ↔ t.log.Open key ∧
      ∃ kind text, t.log.Requested key kind ∧ t.log.Recorded key text ∧
        reply = Reply.parse kind text)
  /-- At most one has got the reply to a key. -/
  got_once : ∀ key, (t.log.takings key).length ≤ 1

theorem Held.correlated (h : t.Held) : t.Correlated where
  keys_nodup := h.log.keys_nodup
  pending := h.log.pending
  pending_nodup := h.log.sound.nodup
  counts key text := by
    have accepted : (t.perform (.submit key text)).1 = .recorded true ↔
        t.channel.accepts key = true := by
      rw [perform, Answer.recorded.injEq]
    rw [accepted, Channel.accepts_iff, ← h.log.pending, Channel.mem_keys_iff]
    constructor
    · rintro ⟨p, found, unanswered⟩
      refine ⟨⟨p, found⟩, fun earlier counts => ?_⟩
      have := (h.log.replies key p found _).2 ⟨earlier, counts, rfl⟩
      rw [unanswered] at this
      cases this
    · rintro ⟨⟨p, found⟩, unrecorded⟩
      refine ⟨p, found, ?_⟩
      cases replied : p.reply with
      | none => rfl
      | some reply =>
        obtain ⟨text, counts, -⟩ := (h.log.replies key p found reply).1 replied
        exact absurd counts (unrecorded text)
  counted_once := h.log.recorded_once
  gets a key reply looks := by
    rw [perform_eq_taken_iff looks, ← h.log.pending, Channel.mem_keys_iff]
    constructor
    · rintro ⟨p, found, replied⟩
      obtain ⟨text, counts, rfl⟩ := (h.log.replies key p found reply).1 replied
      have isOpen : t.log.Open key := (h.log.pending key).1 (Channel.mem_keys_iff.2 ⟨p, found⟩)
      obtain ⟨kind, asked⟩ := isOpen.1
      have same := h.log.kinds key p found kind asked
      exact ⟨⟨p, found⟩, kind, text, asked, counts, by rw [same]⟩
    · rintro ⟨⟨p, found⟩, kind, text, asked, counts, rfl⟩
      refine ⟨p, found, (h.log.replies key p found _).2 ⟨text, counts, ?_⟩⟩
      rw [h.log.kinds key p found kind asked]
  got_once := h.log.taken_once

/-- Whatever is done in whatever order. -/
theorem correlated_run (acts : List Act) : (run acts).Correlated := (held_run acts).correlated

end Traffic

end Stepper.Debug
