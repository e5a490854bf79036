/-
  An evaluation that a client attends to.

  A client is `Attended` by when it stays attached, can be reached, and
  answers every prompt of the evaluation, while nothing keeps the evaluation
  from running.  As long as the answers are `Friendly`, whatever the others
  do, the evaluation stays `OnTrack`: it will end as if no breakpoint had ever
  been reached (`onTrack_after`).
-/
import Stepper.Proofs.Eval.Cancellation
import Stepper.Proofs.Service.Keys
import Stepper.Proofs.Service.Tickets

namespace Stepper.Debug

open Stepper.Eval

/-! ## Answers -/

/-- Whether a command lets the evaluation go on with the value at hand. -/
def Command.steps : Command → Bool
  | .next | .proceed | .out => true
  | .inject | .eval | .quit => false

/-- A reply that does not touch the evaluation. -/
def Friendly : Ask → Except Error Reply → Prop
  | .command, .ok (.command c) => c.steps = true ∨ c = .eval
  | .eval, .ok (.expression _) => True
  | _, _ => False

namespace Service

/-- The `n`-th action replies to a prompt of the `i`-th evaluation, and counts. -/
def Replies (s : Service) (schedule : Nat → Action) (i n : Nat) (ask : Ask)
    (reply : Except Error Reply) : Prop :=
  ∃ key text, (s.after schedule n).open? i = some (ask, key) ∧ schedule n = .submit key text ∧
    Reply.parse ask.kind text = reply

/-- Until the `i`-th evaluation ends, a client attends to it. -/
structure Attended (s : Service) (schedule : Nat → Action) (i : Nat) (client : Attachment) :
    Prop where
  attached : ∀ n, (s.after schedule n).result? i = none →
    (s.after schedule n).debugger.slot = some client
  accepts : ∀ n, (s.after schedule n).result? i = none →
    (s.after schedule n).debugger.net.accepts client.connection = true
  /-- There is time enough to reply. -/
  unhurried : ∀ n, schedule n ≠ .expire i
  /-- An evaluation that can always make a step makes one some time. -/
  fair : ∀ n, (∀ m, n ≤ m → (s.after schedule m).CanAdvance i) →
    ∃ m, n ≤ m ∧ schedule m = .advance i
  /-- Every prompt is answered some time. -/
  answered : ∀ n ask key, (s.after schedule n).open? i = some (ask, key) →
    ∃ m, n ≤ m ∧ ∃ text, schedule m = .submit key text

/-- No breakpoint is answered by `eval` for ever: again and again there is a
    command with which the evaluation goes on, unless `eval` does not come any
    more. -/
def Decided (s : Service) (schedule : Nat → Action) (i : Nat) : Prop :=
  ∀ n,
    (∃ m, n ≤ m ∧ ∃ c : Command, c.steps = true ∧
      Replies s schedule i m .command (.ok (.command c))) ∨
    ∃ m, n ≤ m ∧ ∀ k, m ≤ k → ¬ Replies s schedule i k .command (.ok (.command .eval))

end Service

/-! ## On track -/

/-- At a breakpoint, nothing but the value at hand can come of it. -/
def Pause.OnTrack (client : Attachment) (d : Debugger) : Pause → Prop
  | .arrived | .admitted | .unskipped | .unattached => True
  | .asking dialog ask => dialog.client = client ∧ ask ≠ .inject
  | .sending dialog ask key | .awaiting dialog ask key =>
    dialog.client = client ∧ ask ≠ .inject ∧
      ∀ reply, d.reply? key = some reply → Friendly ask reply
  | .refused .. => False
  | .answered dialog ask reply => dialog.client = client ∧ Friendly ask reply

/-- The evaluation will end with the given result, if left alone. -/
def Stage.OnTrack (client : Attachment) (d : Debugger) (plain : Result) : Stage → Prop
  | .running rest => rest.untouched false = plain
  | .paused _ value next pause =>
    (next (.ok value)).untouched false = plain ∧ pause.OnTrack client d
  | .ended result => result = plain

variable {client : Attachment} {d d' : Debugger} {e : Evaluation} {hit : Hit} {plain : Result}

/-- What others do does not lead a breakpoint astray. -/
theorem Pause.OnTrack.of_others {p : Pause} (h : p.OnTrack client d)
    (replies : ∀ ask key, p.ask? = some (ask, key) → d'.reply? key = d.reply? key ∨
      ∃ reply, d'.reply? key = some reply ∧ Friendly ask reply) :
    p.OnTrack client d' := by
  cases p with
  | arrived | admitted | unskipped | unattached | asking | refused | answered => exact h
  | sending dialog ask key | awaiting dialog ask key =>
    obtain ⟨same, free, friendly⟩ := h
    refine ⟨same, free, fun reply replied => ?_⟩
    rcases replies ask key rfl with unchanged | ⟨reply', replied', friendly'⟩
    · exact friendly reply (unchanged ▸ replied)
    · rw [replied'] at replied
      cases replied
      exact friendly'

theorem Stage.OnTrack.of_others {stage : Stage} (h : stage.OnTrack client d plain)
    (replies : ∀ ask key, stage.ask? = some (ask, key) → d'.reply? key = d.reply? key ∨
      ∃ reply, d'.reply? key = some reply ∧ Friendly ask reply) :
    stage.OnTrack client d' plain := by
  cases stage with
  | running | ended => exact h
  | paused => exact ⟨h.1, h.2.of_others replies⟩

theorem Hit.evaluate_ne_cancelled {form : Syntax.Form} (free : d.isTripped hit.ticket = false) :
    hit.evaluate form (d.isTripped hit.ticket) ≠ .error .cancelled := by
  rw [free]
  exact Snapshot.evaluateForm_ne_cancelled _ _ _

theorem Goes.onTrack {p q : Pause} (goes : Goes hit d p q d') (sound : d.channel.Sound)
    (attached : d.slot = some client) (accepts : d.net.accepts client.connection = true)
    (h : p.OnTrack client d) : q.OnTrack client d' := by
  cases goes with
  | pass | unskip | wait => exact trivial
  | find found | found _ found =>
    rw [attached] at found
    cases found
    exact ⟨rfl, by decide⟩
  | ask =>
    refine ⟨h.1, h.2, fun reply replied => ?_⟩
    rw [Debugger.reply?_register sound] at replied
    cases replied
  | send => exact h
  | refuse refuses =>
    rw [h.1, accepts] at refuses
    cases refuses
  | take replied => exact ⟨h.1, h.2.2 _ replied⟩
  | inject =>
    obtain ⟨-, steps | same⟩ := h
    · cases steps
    · cases same
  | eval | «show» => exact ⟨h.1, by decide⟩

/-- Whoever is on track leaves a breakpoint with the value at hand. -/
theorem Leaves.onTrack {p : Pause} {answer : Result} (leaves : Leaves hit d p answer d')
    (free : d.isTripped hit.ticket = false) (attached : d.slot = some client)
    (pending : ∀ key, p.held? = some key → key ∈ d.channel.keys) (h : p.OnTrack client d) :
    answer = .ok hit.value := by
  cases leaves with
  | skip | next | proceed | out => rfl
  | stopped tripped | unattached tripped | awaiting _ tripped =>
    rw [free] at tripped
    cases tripped
  | alone detached =>
    rw [attached] at detached
    cases detached
  | refused => exact h.elim
  | lost gone => exact absurd (pending _ rfl) gone
  | failed =>
    obtain ⟨-, friendly⟩ := h
    revert friendly
    rename_i ask _
    cases ask <;> exact False.elim
  | noCommand => exact h.2.elim
  | noExpression kind =>
    obtain ⟨-, friendly⟩ := h
    revert friendly
    rename_i ask _
    cases ask with
    | command => exact absurd rfl kind
    | inject | eval => exact False.elim
  | quit =>
    obtain ⟨-, steps | same⟩ := h
    · cases steps
    · cases same
  | inject => exact h.2.elim
  | eval cancelled => exact absurd cancelled (Hit.evaluate_ne_cancelled free)

theorem Steps.onTrack {stage : Stage} (steps : Steps e d e.stage stage d')
    (sound : d.channel.Sound) (free : d.isTripped e.ticket = false)
    (attached : d.slot = some client) (accepts : d.net.accepts client.connection = true)
    (pending : ∀ key, e.stage.held? = some key → key ∈ d.channel.keys)
    (h : e.stage.OnTrack client d plain) : stage.OnTrack client d' plain := by
  obtain ⟨ticket, session, before⟩ := e
  cases steps with
  | finish | formStart => exact h
  | poll =>
    change d.isTripped ticket = false at free
    rw [Stage.OnTrack, free]
    exact h
  | arrive => exact ⟨h, trivial⟩
  | goes goes => exact ⟨h.1, goes.onTrack sound attached accepts h.2⟩
  | leaves leaves =>
    rw [Stage.OnTrack, leaves.onTrack free attached pending h.2]
    exact h.1

/-! ## Along a schedule -/

namespace Service

variable {s : Service} {schedule : Nat → Action} {i n : Nat}

theorem open?_eq {ask : Ask} {key : Key} (here : s.evaluations[i]? = some e)
    (asked : e.stage.ask? = some (ask, key)) (accepted : s.debugger.accepts key = true) :
    s.open? i = some (ask, key) := by
  rw [open?, ask?_eq (stage?_eq here), asked, Option.filter_some_pos]
  exact accepted

/-- What the next action means to the `i`-th evaluation: it makes a step, or a
    reply to its prompt is put down, or nothing. -/
theorem turn (keyed : (s.after schedule n).Keyed) (unhurried : schedule n ≠ .expire i)
    (here : (s.after schedule n).evaluations[i]? = some e) :
    (schedule n = .advance i ∧ ∃ stage d, Steps e (s.after schedule n).debugger e.stage stage d ∧
      s.after schedule (n + 1) = (s.after schedule n).moved i e stage d) ∨
    ((s.after schedule (n + 1)).evaluations[i]? = some e ∧
      ∀ ask key, e.stage.ask? = some (ask, key) →
        (s.after schedule (n + 1)).debugger.reply? key = (s.after schedule n).debugger.reply? key ∨
        ∃ reply, (s.after schedule (n + 1)).debugger.reply? key = some reply ∧
          (s.after schedule n).debugger.reply? key = none ∧ Replies s schedule i n ask reply) := by
  by_cases own : schedule n = .advance i
  · rcases advance_of_act here own with idle | ⟨stage, d, steps, moved⟩
    · refine .inr ?_
      rw [after, idle]
      exact ⟨here, fun _ _ _ => .inl rfl⟩
    · exact .inl ⟨own, stage, d, steps, moved⟩
  · have others : ¬ Moves i (schedule n) := fun moves => moves.elim own unhurried
    refine .inr ⟨evaluation_act here others, fun ask key asked => ?_⟩
    have askedHere : (s.after schedule n).ask? i = some (ask, key) :=
      (ask?_eq (stage?_eq here)).trans asked
    rcases find?_act keyed (held?_of_ask? askedHere) others with same | ⟨text, submits⟩
    · exact .inl (by rw [after, Debugger.reply?, same, Debugger.reply?])
    · have replied : (s.after schedule (n + 1)).debugger.reply? key =
          ((s.after schedule n).debugger.reply? key).or (some (Reply.parse ask.kind text)) := by
        rw [after, submits]
        exact reply?_submit keyed askedHere text
      cases unanswered : (s.after schedule n).debugger.reply? key with
      | some reply =>
        rw [unanswered] at replied
        exact .inl replied
      | none =>
        rw [unanswered, Option.none_or] at replied
        have pending := keyed.pending i key (held?_of_ask? askedHere)
        have accepts := Debugger.accepts_iff.2 ⟨pending, unanswered⟩
        exact .inr ⟨_, replied, rfl, key, text, open?_eq here asked accepts, submits, rfl⟩

section

variable (keyed : s.Keyed) (ticketed : s.Ticketed) (attended : s.Attended schedule i client)
  (untripped : ∀ n, (s.after schedule n).result? i = none →
    (s.after schedule n).debugger.isTripped i = false)
  (friendly : ∀ n ask reply, Replies s schedule i n ask reply → Friendly ask reply)
include keyed ticketed attended untripped friendly

/-- Whatever the others do, the evaluation stays on track. -/
theorem onTrack_after (here : s.evaluations[i]? = some e)
    (h : e.stage.OnTrack client s.debugger plain) (n : Nat) :
    ∃ stage, (s.after schedule n).evaluations[i]? = some { e with stage } ∧
      stage.OnTrack client (s.after schedule n).debugger plain := by
  induction n with
  | zero => exact ⟨e.stage, here, h⟩
  | succ n ih =>
    obtain ⟨stage, there, track⟩ := ih
    have keyedThere := keyed.after schedule n
    rcases turn keyedThere (attended.unhurried n) there with
      ⟨-, stage', d, steps, moved⟩ | ⟨still, replies⟩
    · rw [moved]
      refine ⟨stage', by rw [evaluation_moved there, if_pos rfl], ?_⟩
      have runs := result?_of_steps there steps
      refine steps.onTrack keyedThere.sound ?_ (attended.attached n runs) (attended.accepts n runs)
        (fun key hold => keyedThere.pending i key ((held?_eq (stage?_eq there)).trans hold)) track
      have ticket : e.ticket = i := ticketed.ticket i e here
      rw [ticket]
      exact untripped n runs
    · refine ⟨stage, still, track.of_others fun ask key asked => ?_⟩
      rcases replies ask key asked with same | ⟨reply, replied, -, counts⟩
      · exact .inl same
      · exact .inr ⟨reply, replied, friendly n ask reply counts⟩

end

end Service

end Stepper.Debug
