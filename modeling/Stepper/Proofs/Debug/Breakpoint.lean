/-
  The moves at a breakpoint, one by one.

  `Goes` lists the moves after which the evaluation is still at the
  breakpoint, `Leaves` those with which it goes on, each with what the move
  makes of the shared state and under which condition it is made; `Stands`
  says when there is none.  `makes_move`: these are all; `Goes.move`,
  `Leaves.move` and `Stands.move`: each of them is made.
-/
import Stepper.Debug.Breakpoint
import Stepper.Proofs.Debug.Channel

namespace Stepper.Debug

open Stepper.Eval

/-- The shared state after a message to a client. -/
def Debugger.offer (d : Debugger) (client : Attachment) (body : Json.Object) : Debugger :=
  { d with net := d.net.offer client.connection (client.message ["awaiting-input"] body) }

/-- The shared state after a key has been given out. -/
def Debugger.register (d : Debugger) (kind : InputKind) : Debugger :=
  { d with channel := d.channel.register kind }

/-- The shared state after a key has been forgotten. -/
def Debugger.forget (d : Debugger) (key : Key) : Debugger :=
  { d with channel := d.channel.forget key }

/-- The reply to a key that has been put down. -/
def Debugger.reply? (d : Debugger) (key : Key) : Option (Except Error Reply) :=
  (d.channel.find? key).bind (·.reply)

variable (hit : Hit) (d : Debugger)

/-- The moves to another place at the same breakpoint. -/
inductive Goes : Pause → Pause → Debugger → Prop
  | pass (free : d.isTripped hit.ticket = false) : Goes .arrived .admitted d
  | unskip (prompts : d.sessions.skips hit.session hit.site.place = false) :
    Goes .admitted .unskipped d
  | find {client} (attached : d.slot = some client) :
    Goes .unskipped (.asking ⟨client, none⟩ .command) d
  | wait (detached : d.slot = none) (policy : d.settings.detached = .block) :
    Goes .unskipped .unattached d
  | found {client} (free : d.isTripped hit.ticket = false) (attached : d.slot = some client) :
    Goes .unattached (.asking ⟨client, none⟩ .command) d
  | ask {dialog ask} :
    Goes (.asking dialog ask) (.sending dialog ask d.channel.nextKey) (d.register ask.kind)
  | send {dialog ask key} (accepts : d.net.accepts dialog.client.connection = true) :
    Goes (.sending dialog ask key) (.awaiting dialog ask key)
      (d.offer dialog.client (hit.promptBody dialog ask key))
  | refuse {dialog ask key} (refuses : d.net.accepts dialog.client.connection = false) :
    Goes (.sending dialog ask key) (.refused key dialog.client.connection)
      (d.offer dialog.client (hit.promptBody dialog ask key))
  | take {dialog ask key reply} (replied : d.reply? key = some reply) :
    Goes (.awaiting dialog ask key) (.answered dialog ask reply) (d.forget key)
  | inject {dialog} :
    Goes (.answered dialog .command (.ok (.command .inject))) (.asking dialog .inject) d
  | eval {dialog} :
    Goes (.answered dialog .command (.ok (.command .eval))) (.asking dialog .eval) d
  | «show» {dialog form}
    (uncancelled : hit.evaluate form (d.isTripped hit.ticket) ≠ .error .cancelled) :
    Goes (.answered dialog .eval (.ok (.expression form)))
      (.asking { dialog with
        shown := some (shownText (hit.evaluate form (d.isTripped hit.ticket))) } .command) d

/-- The moves with which the evaluation goes on. -/
inductive Leaves : Pause → Result → Debugger → Prop
  | stopped (tripped : d.isTripped hit.ticket = true) : Leaves .arrived (.error .cancelled) d
  | skip (skips : d.sessions.skips hit.session hit.site.place = true) :
    Leaves .admitted (.ok hit.value) d
  | alone (detached : d.slot = none) (policy : d.settings.detached = .fail) :
    Leaves .unskipped (.error (.noDebugger hit.site.place)) d
  | unattached (tripped : d.isTripped hit.ticket = true) :
    Leaves .unattached (.error .cancelled) d
  | refused {key connection} :
    Leaves (.refused key connection) (.error (.connectionClosed connection)) (d.forget key)
  | lost {dialog ask key} (gone : key ∉ d.channel.keys) :
    Leaves (.awaiting dialog ask key) (.error (.malformedReply (.notPending key.text))) d
  | awaiting {dialog ask key} (unanswered : d.accepts key = true)
    (tripped : d.isTripped hit.ticket = true) :
    Leaves (.awaiting dialog ask key) (.error .cancelled) (d.forget key)
  | failed {dialog ask error} : Leaves (.answered dialog ask (.error error)) (.error error) d
  | noCommand {dialog form} :
    Leaves (.answered dialog .command (.ok (.expression form)))
      (.error (.malformedReply .expectedCommand)) d
  | noExpression {dialog ask command} (kind : ask ≠ .command) :
    Leaves (.answered dialog ask (.ok (.command command)))
      (.error (.malformedReply .expectedExpression)) d
  | next {dialog} :
    Leaves (.answered dialog .command (.ok (.command .next))) (.ok hit.value) d
  | proceed {dialog} :
    Leaves (.answered dialog .command (.ok (.command .proceed))) (.ok hit.value)
      (d.setPolicy hit.session .everything)
  | out {dialog} :
    Leaves (.answered dialog .command (.ok (.command .out))) (.ok hit.value)
      (d.setPolicy hit.session (.below hit.site.place.parent))
  | quit {dialog} :
    Leaves (.answered dialog .command (.ok (.command .quit))) (.error .cancelled)
      (d.trip hit.ticket)
  | inject {dialog form} :
    Leaves (.answered dialog .inject (.ok (.expression form)))
      (hit.evaluate form (d.isTripped hit.ticket)) d
  | eval {dialog form}
    (cancelled : hit.evaluate form (d.isTripped hit.ticket) = .error .cancelled) :
    Leaves (.answered dialog .eval (.ok (.expression form))) (.error .cancelled) d

/-- The places where nothing can be done for now. -/
inductive Stands : Pause → Prop
  | unattached (free : d.isTripped hit.ticket = false) (detached : d.slot = none) :
    Stands .unattached
  | awaiting {dialog ask key} (free : d.isTripped hit.ticket = false)
    (unanswered : d.accepts key = true) : Stands (.awaiting dialog ask key)

/-- What a move comes to. -/
def Makes (p : Pause) : Move → Prop
  | .blocked => Stands hit d p
  | .goTo q d' => Goes hit d p q d'
  | .resume answer d' => Leaves hit d p answer d'

variable {hit d}

theorem Debugger.reply?_eq_some_iff {key : Key} {reply : Except Error Reply} :
    d.reply? key = some reply ↔ ∃ p, d.channel.find? key = some p ∧ p.reply = some reply :=
  Option.bind_eq_some_iff

theorem Debugger.accepts_iff {key : Key} :
    d.accepts key = true ↔ key ∈ d.channel.keys ∧ d.reply? key = none := by
  rw [accepts, Channel.accepts_iff, Channel.mem_keys_iff, reply?]
  constructor
  · rintro ⟨p, found, unanswered⟩
    exact ⟨⟨p, found⟩, by rw [found, Option.bind_some, unanswered]⟩
  · rintro ⟨⟨p, found⟩, unanswered⟩
    rw [found, Option.bind_some] at unanswered
    exact ⟨p, found, unanswered⟩

theorem Debugger.reply?_register (sound : d.channel.Sound) (kind : InputKind) :
    (d.register kind).reply? d.channel.nextKey = none := by
  rw [reply?, register, Channel.find?_register sound.nextKey_notMem, if_pos rfl]
  rfl

theorem makes_react (dialog : Dialog) (ask : Ask) (reply : Except Error Reply) :
    Makes hit d (.answered dialog ask reply) (hit.react d dialog ask reply) := by
  cases reply with
  | error e => cases ask <;> exact .failed
  | ok reply =>
    cases reply with
    | command c =>
      cases ask with
      | command =>
        cases c with
        | next => exact .next
        | proceed => exact .proceed
        | out => exact .out
        | inject => exact .inject
        | eval => exact .eval
        | quit => exact .quit
      | inject => exact .noExpression (by decide)
      | eval => exact .noExpression (by decide)
    | expression form =>
      cases ask with
      | command => exact .noCommand
      | inject => exact .inject
      | eval =>
        simp only [Hit.react]
        split
        · rename_i cancelled
          exact .eval cancelled
        · rename_i uncancelled
          exact .show uncancelled

/-- Whatever move is made is one of those listed. -/
theorem makes_move (hit : Hit) (d : Debugger) (p : Pause) : Makes hit d p (p.move hit d) := by
  cases p with
  | arrived =>
    simp only [Pause.move]
    split
    · rename_i tripped
      exact .stopped tripped
    · rename_i free
      exact .pass (Bool.not_eq_true _ ▸ free)
  | admitted =>
    simp only [Pause.move]
    split
    · rename_i skips
      exact .skip skips
    · rename_i prompts
      exact .unskip (Bool.not_eq_true _ ▸ prompts)
  | unskipped =>
    simp only [Pause.move]
    split
    · rename_i attached
      exact .find attached
    · rename_i detached policy
      exact .alone detached policy
    · rename_i detached policy
      exact .wait detached policy
  | unattached =>
    simp only [Pause.move, AttachmentSlot.wait?]
    cases tripped : d.isTripped hit.ticket with
    | true => exact .unattached tripped
    | false =>
      cases slot : d.slot with
      | none => exact .unattached tripped slot
      | some client => exact .found tripped slot
  | asking dialog ask => exact .ask
  | sending dialog ask key =>
    simp only [Pause.move, Attachment.push]
    cases accepts : d.net.accepts dialog.client.connection with
    | true => exact .send accepts
    | false => exact .refuse accepts
  | refused key connection => exact .refused
  | awaiting dialog ask key =>
    simp only [Pause.move]
    split
    · rename_i reply channel taken
      obtain ⟨replied, rfl⟩ := Channel.take_eq_taken_iff.1 taken
      exact .take (Debugger.reply?_eq_some_iff.2 replied)
    · rename_i taken
      exact .lost (Channel.take_eq_notPending_iff.1 taken)
    · rename_i taken
      have unanswered : d.accepts key = true := Channel.take_eq_unanswered_iff.1 taken
      split
      · rename_i tripped
        exact .awaiting unanswered tripped
      · rename_i free
        exact .awaiting (Bool.not_eq_true _ ▸ free) unanswered
  | answered dialog ask reply => exact makes_react dialog ask reply

theorem goes_of_move {p q : Pause} {d' : Debugger} (h : p.move hit d = .goTo q d') :
    Goes hit d p q d' := by
  have made := makes_move hit d p
  rw [h] at made
  exact made

theorem leaves_of_move {p : Pause} {answer : Result} {d' : Debugger}
    (h : p.move hit d = .resume answer d') : Leaves hit d p answer d' := by
  have made := makes_move hit d p
  rw [h] at made
  exact made

theorem stands_of_move {p : Pause} (h : p.move hit d = .blocked) : Stands hit d p := by
  have made := makes_move hit d p
  rw [h] at made
  exact made

theorem Goes.move {p q : Pause} {d' : Debugger} (h : Goes hit d p q d') :
    p.move hit d = .goTo q d' := by
  cases h with
  | pass free | unskip free => simp [Pause.move, free]
  | find attached => simp [Pause.move, attached]
  | wait detached policy => simp [Pause.move, detached, policy]
  | found free attached => simp [Pause.move, AttachmentSlot.wait?, free, attached]
  | ask => rfl
  | send accepts => simp [Pause.move, Attachment.push, accepts, Debugger.offer]
  | refuse refuses => simp [Pause.move, Attachment.push, refuses, Debugger.offer]
  | take replied =>
    have taken := Channel.take_eq_taken_iff.2 ⟨Debugger.reply?_eq_some_iff.1 replied, rfl⟩
    simp [Pause.move, taken, Debugger.forget]
  | inject | eval => rfl
  | «show» uncancelled =>
    -- `uncancelled` rules out the other branch of `react`
    simp only [Pause.move, Hit.react]

theorem Leaves.move {p : Pause} {answer : Result} {d' : Debugger} (h : Leaves hit d p answer d') :
    p.move hit d = .resume answer d' := by
  cases h with
  | stopped tripped | skip tripped => simp [Pause.move, tripped]
  | alone detached policy => simp [Pause.move, detached, policy]
  | unattached tripped => simp [Pause.move, AttachmentSlot.wait?, tripped]
  | refused => rfl
  | lost gone =>
    have taken := Channel.take_eq_notPending_iff.2 gone
    simp [Pause.move, taken]
  | awaiting unanswered tripped =>
    have taken := Channel.take_eq_unanswered_iff.2 unanswered
    simp [Pause.move, taken, tripped, Debugger.forget]
  | @failed dialog ask => cases ask <;> rfl
  | @noExpression dialog ask command kind =>
    cases ask with
    | command => exact absurd rfl kind
    | inject | eval => rfl
  | noCommand | next | proceed | out | quit | inject => rfl
  | eval cancelled => simp [Pause.move, Hit.react, cancelled]

theorem Stands.move {p : Pause} (h : Stands hit d p) : p.move hit d = .blocked := by
  cases h with
  | unattached free detached => simp [Pause.move, AttachmentSlot.wait?, free, detached]
  | awaiting free unanswered =>
    have taken := Channel.take_eq_unanswered_iff.2 unanswered
    simp [Pause.move, taken, free]

end Stepper.Debug
