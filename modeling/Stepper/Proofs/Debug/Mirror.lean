/-
  Two evaluations that stand alike.

  Two evaluations that stand at one place of one program, with the same client
  and possibly different keys, make the same step, provided that they are
  cancelled alike and that their sessions pass the same breakpoints
  (`Steps.mirror`).  Only a reply has to be there for both of them to be taken
  by both.
-/
import Stepper.Proofs.Debug.Evaluation

namespace Stepper.Debug

open Stepper.Eval

/-- The same place at a breakpoint with the same client, up to the key. -/
inductive Pause.Like (client : Attachment) : Pause → Pause → Prop
  | arrived : Like client .arrived .arrived
  | admitted : Like client .admitted .admitted
  | unskipped : Like client .unskipped .unskipped
  | unattached : Like client .unattached .unattached
  | asking {dialog ask} (own : dialog.client = client) :
    Like client (.asking dialog ask) (.asking dialog ask)
  | sending {dialog ask} (key key' : Key) (own : dialog.client = client) :
    Like client (.sending dialog ask key) (.sending dialog ask key')
  | awaiting {dialog ask} (key key' : Key) (own : dialog.client = client) :
    Like client (.awaiting dialog ask key) (.awaiting dialog ask key')
  | answered {dialog ask reply} (own : dialog.client = client) :
    Like client (.answered dialog ask reply) (.answered dialog ask reply)

/-- The same stage of one program, up to keys. -/
inductive Stage.Like (client : Attachment) : Stage → Stage → Prop
  | running {rest} : Like client (.running rest) (.running rest)
  | paused {site value next p p'} (pauses : p.Like client p') :
    Like client (.paused site value next p) (.paused site value next p')
  | ended {result} : Like client (.ended result) (.ended result)

/-- The reply that has been put down, but not taken yet. -/
def Pause.recorded (d : Debugger) (p : Pause) : Option (Ask × Except Error Reply) :=
  p.ask?.bind fun (ask, key) => (d.reply? key).map (ask, ·)

/-- The reply that has been put down, but not taken yet. -/
def Stage.recorded (d : Debugger) : Stage → Option (Ask × Except Error Reply)
  | .paused _ _ _ pause => pause.recorded d
  | _ => none

/-- Whether the evaluation cancels itself in its next step. -/
def Stage.quits : Stage → Bool
  | .paused _ _ _ (.answered _ .command (.ok (.command .quit))) => true
  | _ => false

/-- At a breakpoint, and found not to be cancelled. -/
def Stage.Entered : Stage → Prop
  | .paused _ _ _ .arrived => False
  | .paused .. => True
  | _ => False

variable {e f : Evaluation} {d d' d₁ : Debugger} {client : Attachment} {site : Site} {value : Value}
  {p p' q : Pause} {stage stage' : Stage}

theorem Stage.recorded_eq : stage.recorded d =
    stage.ask?.bind fun (ask, key) => (d.reply? key).map (ask, ·) := by
  cases stage <;> rfl

theorem Pause.Like.ask?_eq_none_iff (like : p.Like client p') : p'.ask? = none ↔ p.ask? = none := by
  cases like <;> simp [Pause.ask?]

theorem Stage.Like.quits (like : stage.Like client stage') : stage'.quits = stage.quits := by
  cases like with
  | running | ended => rfl
  | paused pauses => cases pauses <;> rfl

theorem Stage.Like.entered_iff (like : stage.Like client stage') :
    stage'.Entered ↔ stage.Entered := by
  cases like with
  | running | ended => rfl
  | paused pauses => cases pauses <;> rfl

theorem Stage.Like.exists_awaiting {next : Result → Run Result} {dialog : Dialog} {ask : Ask}
    {key : Key}
    (like : Stage.Like client (.paused site value next (.awaiting dialog ask key)) stage') :
    dialog.client = client ∧
      ∃ key', stage' = .paused site value next (.awaiting dialog ask key') := by
  cases like with
  | paused pauses =>
    cases pauses with
    | awaiting key key' own => exact ⟨own, key', rfl⟩

theorem Stage.Like.exists_sending {next : Result → Run Result} {dialog : Dialog} {ask : Ask}
    {key : Key}
    (like : Stage.Like client (.paused site value next (.sending dialog ask key)) stage') :
    dialog.client = client ∧
      ∃ key', stage' = .paused site value next (.sending dialog ask key') := by
  cases like with
  | paused pauses =>
    cases pauses with
    | sending key key' own => exact ⟨own, key', rfl⟩

theorem Steps.isTripped (steps : Steps e d e.stage stage d₁) :
    d₁.isTripped e.ticket = (e.stage.quits || d.isTripped e.ticket) := by
  obtain ⟨ticket, session, before⟩ := e
  cases steps with
  | finish | poll | formStart | arrive => rfl
  | goes goes => cases goes <;> rfl
  | leaves leaves =>
    cases leaves with
    | quit => simp [Stage.quits, Debugger.isTripped, Debugger.trip]
    | @failed dialog ask => cases ask <;> rfl
    | @noExpression dialog ask command kind =>
      cases ask with
      | command => exact absurd rfl kind
      | inject | eval => rfl
    | stopped | skip | alone | unattached | refused | lost | awaiting | noCommand | next | proceed
    | out | inject | eval => rfl

/-- Nobody goes past the beginning of a breakpoint when cancelled, and who has
    gone there is not cancelled by a step that stays at the breakpoint. -/
theorem Steps.free_of_entered (steps : Steps e d e.stage stage d₁)
    (free : e.stage.Entered → d.isTripped e.ticket = false) (entered : stage.Entered) :
    d₁.isTripped e.ticket = false := by
  rw [steps.isTripped]
  obtain ⟨ticket, session, before⟩ := e
  cases steps with
  | finish | poll | formStart | arrive | leaves => exact entered.elim
  | goes goes =>
    cases goes with
    | pass untripped => exact untripped
    | unskip | find | wait | found | ask | send | refuse | take | inject | eval =>
      exact free trivial
    | «show» => exact free trivial

theorem Pause.recorded_sending_nextKey (sound : d.channel.Sound) (dialog : Dialog) (ask : Ask) :
    (Pause.sending dialog ask d.channel.nextKey).recorded (d.register ask.kind) = none := by
  simp only [recorded, ask?, Option.bind_some, Debugger.reply?_register sound, Option.map_none]

/-- What two evaluations have in common. -/
structure Debugger.Agree (d d' : Debugger) (e f : Evaluation) (client : Attachment) : Prop where
  sound : d.channel.Sound
  sound' : d'.channel.Sound
  tripped : d.isTripped e.ticket = d'.isTripped f.ticket
  session : e.session = f.session
  policy : d.sessions.policy e.session = d'.sessions.policy f.session
  attached : d.slot = some client
  attached' : d'.slot = some client
  accepts : d.net.accepts client.connection = true
  accepts' : d'.net.accepts client.connection = true

variable (agree : Debugger.Agree d d' e f client)
include agree

theorem Goes.mirror (goes : Goes (e.hit site value) d p q d₁) (like : p.Like client p') :
    (∃ q' d₁', Goes (f.hit site value) d' p' q' d₁' ∧ q.Like client q' ∧
      q.recorded d₁ = p.recorded d ∧ q'.recorded d₁' = p'.recorded d') ∨
      ∃ dialog ask key reply, p = .awaiting dialog ask key ∧ q = .answered dialog ask reply ∧
        d.reply? key = some reply ∧ d₁ = d.forget key := by
  obtain ⟨sound, sound', tripped, session, policy, attached, attached', accepts, accepts'⟩ := agree
  cases goes with
  | pass free =>
    cases like
    exact .inl ⟨_, _, .pass (tripped ▸ free), .admitted, rfl, rfl⟩
  | unskip prompts =>
    cases like
    refine .inl ⟨_, _, .unskip ?_, .unskipped, rfl, rfl⟩
    rw [SessionStore.skips, ← policy]
    exact prompts
  | find found =>
    rw [attached] at found
    cases found
    cases like
    exact .inl ⟨_, _, .find attached', .asking rfl, rfl, rfl⟩
  | wait detached =>
    rw [attached] at detached
    cases detached
  | found free found =>
    rw [attached] at found
    cases found
    cases like
    exact .inl ⟨_, _, .found (tripped ▸ free) attached', .asking rfl, rfl, rfl⟩
  | ask =>
    cases like with
    | asking own =>
      exact .inl ⟨_, _, .ask, .sending _ _ own, Pause.recorded_sending_nextKey sound _ _,
        Pause.recorded_sending_nextKey sound' _ _⟩
  | send =>
    cases like with
    | sending key key' own =>
      exact .inl ⟨_, _, .send (own ▸ accepts'), .awaiting _ _ own, rfl, rfl⟩
  | refuse refuses =>
    cases like with
    | sending key key' own =>
      rw [own, accepts] at refuses
      cases refuses
  | take replied => exact .inr ⟨_, _, _, _, rfl, rfl, replied, rfl⟩
  | inject =>
    cases like with
    | answered own => exact .inl ⟨_, _, .inject, .asking own, rfl, rfl⟩
  | eval =>
    cases like with
    | answered own => exact .inl ⟨_, _, .eval, .asking own, rfl, rfl⟩
  | @«show» dialog form uncancelled =>
    cases like with
    | answered own =>
      have same : (f.hit site value).evaluate form (d'.isTripped f.ticket) =
          (e.hit site value).evaluate form (d.isTripped e.ticket) := by
        rw [tripped]
        rfl
      have uncancelled' : (f.hit site value).evaluate form (d'.isTripped f.ticket) ≠
          .error .cancelled := by
        rw [same]
        exact uncancelled
      refine .inl ⟨_, _, .show uncancelled', ?_, rfl, rfl⟩
      change Pause.Like client _ (.asking { dialog with
        shown := some (shownText ((f.hit site value).evaluate form (d'.isTripped f.ticket))) } _)
      rw [same]
      exact .asking own

theorem Leaves.mirror {answer : Result} (leaves : Leaves (e.hit site value) d p answer d₁)
    (like : p.Like client p') (pending : ∀ key, p.held? = some key → key ∈ d.channel.keys)
    (free : p ≠ .arrived → d.isTripped e.ticket = false) :
    (∃ d₁', Leaves (f.hit site value) d' p' answer d₁') ∧ p.ask? = none := by
  obtain ⟨-, -, tripped, session, policy, attached, -, -, -⟩ := agree
  cases leaves with
  | stopped cancelled =>
    cases like
    exact ⟨⟨_, .stopped (tripped ▸ cancelled)⟩, rfl⟩
  | skip skips =>
    cases like
    refine ⟨⟨_, .skip ?_⟩, rfl⟩
    rw [SessionStore.skips, ← policy]
    exact skips
  | alone detached =>
    rw [attached] at detached
    cases detached
  | unattached cancelled | awaiting _ cancelled =>
    have untripped := free (fun same => by cases same)
    change d.isTripped e.ticket = true at cancelled
    rw [untripped] at cancelled
    cases cancelled
  | refused => cases like
  | lost gone => exact absurd (pending _ rfl) gone
  | failed =>
    cases like
    exact ⟨⟨_, .failed⟩, rfl⟩
  | noCommand =>
    cases like
    exact ⟨⟨_, .noCommand⟩, rfl⟩
  | noExpression kind =>
    cases like
    exact ⟨⟨_, .noExpression kind⟩, rfl⟩
  | next =>
    cases like
    exact ⟨⟨_, .next⟩, rfl⟩
  | proceed =>
    cases like
    exact ⟨⟨_, .proceed⟩, rfl⟩
  | out =>
    cases like
    exact ⟨⟨_, .out⟩, rfl⟩
  | quit =>
    cases like
    exact ⟨⟨_, .quit⟩, rfl⟩
  | @inject dialog form =>
    cases like
    refine ⟨⟨d', ?_⟩, rfl⟩
    change Leaves _ _ _ ((f.hit site value).evaluate form (d.isTripped e.ticket)) _
    rw [tripped]
    exact .inject
  | eval cancelled =>
    cases like
    refine ⟨⟨_, .eval ?_⟩, rfl⟩
    change (e.hit site value).evaluate _ (d'.isTripped f.ticket) = _
    rw [← tripped]
    exact cancelled

/-- Evaluations that stand alike make the same step, or one of them takes a
    reply. -/
theorem Steps.mirror (steps : Steps e d e.stage stage d₁) (like : e.stage.Like client f.stage)
    (pending : ∀ key, e.stage.held? = some key → key ∈ d.channel.keys)
    (free : e.stage.Entered → d.isTripped e.ticket = false) :
    (∃ stage' d₁', Steps f d' f.stage stage' d₁' ∧ stage.Like client stage' ∧
      stage.recorded d₁ = e.stage.recorded d ∧ stage'.recorded d₁' = f.stage.recorded d') ∨
      ∃ site value next dialog ask key reply,
        e.stage = .paused site value next (.awaiting dialog ask key) ∧
        stage = .paused site value next (.answered dialog ask reply) ∧
        d.reply? key = some reply ∧ d₁ = d.forget key := by
  generalize before : e.stage = here at steps like pending free
  generalize f.stage = there at like
  cases steps with
  | finish =>
    cases like
    exact .inl ⟨_, _, .finish, .ended, rfl, rfl⟩
  | poll =>
    cases like
    refine .inl ⟨_, _, .poll, ?_, rfl, rfl⟩
    rw [agree.tripped]
    exact .running
  | formStart =>
    cases like
    exact .inl ⟨_, _, .formStart, .running, rfl, rfl⟩
  | arrive =>
    cases like
    exact .inl ⟨_, _, .arrive, .paused .arrived, rfl, rfl⟩
  | goes goes =>
    cases like with
    | paused pauses =>
      rcases goes.mirror agree pauses with
        ⟨q', d₁', goes', like, recorded⟩ | ⟨dialog, ask, key, reply, takes⟩
      · exact .inl ⟨_, _, .goes goes', .paused like, recorded⟩
      · obtain ⟨rfl, rfl, rest⟩ := takes
        exact .inr ⟨_, _, _, dialog, ask, key, reply, rfl, rfl, rest⟩
  | @leaves site value next p answer d₁ leaves =>
    cases like with
    | paused pauses =>
      have untripped : p ≠ .arrived → d.isTripped e.ticket = false := by
        intro entered
        refine free ?_
        cases pauses with
        | arrived => exact absurd rfl entered
        | admitted | unskipped | unattached | asking | sending | awaiting | answered =>
          exact trivial
      obtain ⟨⟨d₁', leaves'⟩, unasked⟩ := leaves.mirror agree pauses pending untripped
      refine .inl ⟨_, _, .leaves leaves', .running, ?_, ?_⟩
      · simp only [Stage.recorded, Pause.recorded, unasked, Option.bind_none]
      · simp only [Stage.recorded, Pause.recorded, pauses.ask?_eq_none_iff.2 unasked,
          Option.bind_none]

end Stepper.Debug
