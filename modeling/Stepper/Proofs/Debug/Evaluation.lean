/-
  The steps of an evaluation, one by one.

  `Steps` lists what an evaluation can do in one step, with what the step
  makes of the shared state, and `Expires` what it does when the time for a
  reply is over.  Either way it touches the shared state only as `Touches`
  says: the sessions at its own, the keys at the one it holds, the cancelled
  evaluations at itself.
-/
import Stepper.Debug.Evaluation
import Stepper.Proofs.Debug.Breakpoint
import Stepper.Proofs.Debug.Session

namespace Stepper.Debug

open Stepper.Eval

/-- The key that an evaluation holds at a breakpoint. -/
def Pause.held? : Pause → Option Key
  | .sending _ _ key | .refused key _ | .awaiting _ _ key => some key
  | _ => none

/-- The prompt that a client may answer. -/
def Pause.ask? : Pause → Option (Ask × Key)
  | .sending _ ask key | .awaiting _ ask key => some (ask, key)
  | _ => none

/-- The key that is held at a stage. -/
def Stage.held? : Stage → Option Key
  | .paused _ _ _ pause => pause.held?
  | _ => none

/-- The prompt at a stage that a client may answer. -/
def Stage.ask? : Stage → Option (Ask × Key)
  | .paused _ _ _ pause => pause.ask?
  | _ => none

/-- What the program still has to do. -/
def Stage.rest : Stage → Run Result
  | .running rest => rest
  | .paused site value next _ => .hit site value next
  | .ended result => .done result

theorem Stage.held?_of_ask? {s : Stage} {ask : Ask} {key : Key} (h : s.ask? = some (ask, key)) :
    s.held? = some key := by
  cases s with
  | running | ended => cases h
  | paused site value next pause =>
    cases pause <;> cases h <;> rfl

namespace Evaluation

/-- The time for a reply is over, and there is none. -/
def timeOut? (e : Evaluation) (d : Debugger) : Option (Evaluation × Debugger) :=
  if d.settings.replyTimeout = none ∨ (e.prompt?.bind d.reply?).isSome = true then none
  else e.expire? d

end Evaluation

/-- The breakpoint at which a step is made. -/
abbrev Evaluation.hit (e : Evaluation) (site : Site) (value : Value) : Hit :=
  ⟨e.ticket, e.session, site, value⟩

/-- The steps of an evaluation from one stage to another. -/
inductive Steps (e : Evaluation) (d : Debugger) : Stage → Stage → Debugger → Prop
  | finish {result} :
    Steps e d (.running (.done result)) (.ended result)
      { d with sessions := d.sessions.finish e.session e.ticket }
  | poll {next} :
    Steps e d (.running (.poll next)) (.running (next (d.isTripped e.ticket))) d
  | formStart {next} :
    Steps e d (.running (.formStart next)) (.running next)
      { d with sessions := d.sessions.startForm e.session }
  | arrive {site value next} :
    Steps e d (.running (.hit site value next)) (.paused site value next .arrived) d
  | goes {site value next p q d'} (goes : Goes (e.hit site value) d p q d') :
    Steps e d (.paused site value next p) (.paused site value next q) d'
  | leaves {site value next p answer d'} (leaves : Leaves (e.hit site value) d p answer d') :
    Steps e d (.paused site value next p) (.running (next answer)) d'

/-- What an evaluation does when the time for a reply is over. -/
inductive Expires (d : Debugger) : Stage → Stage → Debugger → Prop
  | awaiting {site value next dialog ask key} (limited : d.settings.replyTimeout ≠ none)
    (unanswered : d.reply? key = none) :
    Expires d (.paused site value next (.awaiting dialog ask key))
      (.running (next (.error (.replyTimeout key.text)))) (d.forget key)

variable {e e' : Evaluation} {d d' : Debugger} {s s' : Stage}

theorem steps_of_step? (h : e.step? d = some (e', d')) :
    Steps e d e.stage e'.stage d' ∧ e' = { e with stage := e'.stage } := by
  obtain ⟨ticket, session, stage⟩ := e
  cases stage with
  | running rest =>
    cases rest with
    | done result =>
      cases h
      exact ⟨.finish, rfl⟩
    | poll next =>
      cases h
      exact ⟨.poll, rfl⟩
    | formStart next =>
      cases h
      exact ⟨.formStart, rfl⟩
    | hit site value next =>
      cases h
      exact ⟨.arrive, rfl⟩
  | paused site value next p =>
    simp only [Evaluation.step?] at h
    generalize moved : p.move ⟨ticket, session, site, value⟩ d = m at h
    cases m with
    | blocked => cases h
    | goTo q d'' =>
      cases h
      exact ⟨.goes (goes_of_move moved), rfl⟩
    | resume answer d'' =>
      cases h
      exact ⟨.leaves (leaves_of_move moved), rfl⟩
  | ended result => cases h

theorem Steps.step? (h : Steps e d e.stage s' d') : e.step? d = some ({ e with stage := s' }, d') := by
  obtain ⟨ticket, session, stage⟩ := e
  cases h with
  | finish | poll | formStart | arrive => rfl
  | goes goes => simp [Evaluation.step?, goes.move, Evaluation.afterMove]
  | leaves leaves => simp [Evaluation.step?, leaves.move, Evaluation.afterMove]

namespace Evaluation

theorem settle_of_step? (free : e.prompt? = none) (stepped : e.step? d = some (e', d')) :
    e.settle d = e'.settle d' := by
  rw [settle, dif_pos free]
  split
  · rename_i stuck
    rw [stepped] at stuck
    cases stuck
  · rename_i next
    rw [stepped] at next
    cases next
    rfl

theorem settle_of_stuck (free : e.prompt? = none) (stuck : e.step? d = none) :
    e.settle d = (e, d) := by
  rw [settle, dif_pos free]
  split
  · rfl
  · rename_i stepped
    rw [stuck] at stepped
    cases stepped

theorem settle_of_prompt (asks : e.prompt? ≠ none) : e.settle d = (e, d) := by
  rw [settle, dif_neg asks]

end Evaluation

theorem expires_of_timeOut? (h : e.timeOut? d = some (e', d')) :
    Expires d e.stage e'.stage d' ∧ e' = { e with stage := e'.stage } := by
  obtain ⟨ticket, session, stage⟩ := e
  unfold Evaluation.timeOut? at h
  split at h
  · cases h
  · rename_i late
    rw [not_or] at late
    obtain ⟨limited, unanswered⟩ := late
    cases stage with
    | running | ended => cases h
    | paused site value next p =>
      cases p with
      | awaiting dialog ask key =>
        cases h
        refine ⟨.awaiting limited ?_, rfl⟩
        simpa [Evaluation.prompt?, Pause.prompt?] using unanswered
      | _ => cases h

/-- What a step of an evaluation that holds the key `held` may do to the
    shared state. -/
inductive Touches (e : Evaluation) (held : Option Key) (d : Debugger) : Debugger → Prop
  | nothing : Touches e held d d
  | finish : Touches e held d { d with sessions := d.sessions.finish e.session e.ticket }
  | startForm : Touches e held d { d with sessions := d.sessions.startForm e.session }
  | register (kind : InputKind) : Touches e held d (d.register kind)
  | offer (client : Attachment) (body : Json.Object) : Touches e held d (d.offer client body)
  | forget {key : Key} (own : held = some key) : Touches e held d (d.forget key)
  | setPolicy (policy : SkipPolicy) : Touches e held d (d.setPolicy e.session policy)
  | trip : Touches e held d (d.trip e.ticket)

theorem Goes.touches {site : Site} {value : Value} {p q : Pause}
    (h : Goes (e.hit site value) d p q d') : Touches e p.held? d d' := by
  cases h with
  | ask => exact .register _
  | send | refuse => exact .offer _ _
  | take => exact .forget rfl
  | pass | unskip | find | wait | found | inject | eval | «show» => exact .nothing

theorem Leaves.touches {site : Site} {value : Value} {p : Pause} {answer : Result}
    (h : Leaves (e.hit site value) d p answer d') : Touches e p.held? d d' := by
  cases h with
  | refused | awaiting => exact .forget rfl
  | proceed | out => exact .setPolicy _
  | quit => exact .trip
  | stopped | skip | alone | unattached | lost | failed | noCommand | noExpression | next
  | inject | eval => exact .nothing

theorem Steps.touches (h : Steps e d s s' d') : Touches e s.held? d d' := by
  cases h with
  | finish => exact .finish
  | poll | arrive => exact .nothing
  | formStart => exact .startForm
  | goes goes => exact goes.touches
  | leaves leaves => exact leaves.touches

theorem Steps.result? (h : Steps e d e.stage s d') : e.result? = none := by
  obtain ⟨ticket, session, before⟩ := e
  cases h <;> rfl

theorem Expires.result? (h : Expires d e.stage s d') : e.result? = none := by
  obtain ⟨ticket, session, before⟩ := e
  cases h
  rfl

theorem Expires.sessions (h : Expires d s s' d') : d'.sessions = d.sessions := by
  cases h
  rfl

theorem Expires.tripped (h : Expires d s s' d') : d'.tripped = d.tripped := by
  cases h
  rfl

theorem Expires.touches (h : Expires d s s' d') : Touches e s.held? d d' := by
  cases h with
  | awaiting => exact .forget rfl

/-! ## The program -/

/-- With a step the program goes on, or it stays where it is. -/
theorem Steps.follows (h : Steps e d s s' d') :
    s'.rest = s.rest ∨ Run.Follows s'.rest s.rest := by
  cases h with
  | finish | arrive | goes => exact .inl rfl
  | poll => exact .inr (.poll _)
  | formStart => exact .inr .formStart
  | leaves => exact .inr (.hit _)

theorem Expires.follows (h : Expires d s s' d') : Run.Follows s'.rest s.rest := by
  cases h with
  | awaiting => exact .hit _

end Stepper.Debug
