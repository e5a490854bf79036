/-
  Sessions do not interfere.

  While nobody else works on its session, an evaluation cannot tell what else
  goes on: it does what it does when it runs `alone` and is given the same
  answers, up to the keys of its prompts (`runs_as_alone`).

  The proof follows the one run with the other.  The two evaluations stand
  alike at all times (`Mirrored`), except that the one that runs alone is given
  an answer only when the other takes it.
-/
import Mathlib.Data.List.Forall2
import Stepper.Proofs.Debug.Mirror
import Stepper.Proofs.Service.Force

namespace Stepper.Debug

open Stepper.Eval Stepper.Data

/-! ## Prompts -/

/-- The same message, but for its key. -/
structure Delivery.Alike (m m' : Delivery) : Prop where
  recipient : m.recipient = m'.recipient
  failed : m.failed = m'.failed
  fields : ∀ name, name ≠ "key" → Table.find? name m.message = Table.find? name m'.message

/-- The same prompt, but for its key. -/
structure Push.Alike (x x' : Push) : Prop where
  place : x.place = x'.place
  message : x.message.Alike x'.message

/-- Whether an action concerns a session as a whole. -/
def Action.Concerns (session : String) : Action → Prop
  | .start name _ | .setPolicy name _ | .close name => name = session
  | _ => False

theorem find?_insertAll_congr {α : Type} {name : String} {t t' : Table α}
    (h : Table.find? name t = Table.find? name t') (entries : List (String × α)) :
    Table.find? name (Table.insertAll entries t) =
      Table.find? name (Table.insertAll entries t') := by
  induction entries generalizing t t' with
  | nil => exact h
  | cons entry entries ih =>
    refine ih ?_
    rw [Table.find?_insert, Table.find?_insert, h]

theorem Channel.find?_promptBody {name : String} (h : name ≠ "key") (key key' : Key)
    (kind : InputKind) (prompt : String) (display : Json.Object) :
    Table.find? name (promptBody key kind prompt display) =
      Table.find? name (promptBody key' kind prompt display) := by
  refine find?_insertAll_congr ?_ display
  simp only [Table.insertAll, List.foldl_cons, List.foldl_nil, Table.find?_insert, if_neg h]

theorem Attachment.find?_message_congr {name : String} {body body' : Json.Object}
    (h : Table.find? name body = Table.find? name body') (a : Attachment) (status : List String) :
    Table.find? name (a.message status body) = Table.find? name (a.message status body') := by
  simp only [message, Table.find?_insert, h]

theorem Touches.accepts {e : Evaluation} {held : Option Key} {d d' : Debugger}
    (touch : Touches e held d d') (connection : Nat) :
    d'.net.accepts connection = d.net.accepts connection := by
  cases touch <;> rfl

theorem Stage.Like.sends {client : Attachment} {stage stage' : Stage}
    (like : stage.Like client stage') : stage'.sends = stage.sends := by
  cases like with
  | running | ended => rfl
  | paused pauses => cases pauses <;> rfl

theorem Stage.Like.policyAfter {client : Attachment} {stage stage' : Stage}
    (like : stage.Like client stage') (policy : SkipPolicy) :
    stage'.policyAfter policy = stage.policyAfter policy := by
  cases like with
  | running | ended => rfl
  | paused pauses => cases pauses <;> rfl

namespace Service

variable {s t : Service} {i : Nat} {session : String} {client : Attachment}

/-- Evaluations that stand alike send the same prompt, if any. -/
theorem pushed_alike {j : Nat} {e f : Evaluation} (here : s.evaluations[i]? = some e)
    (there : t.evaluations[j]? = some f) (like : e.stage.Like client f.stage)
    (same : e.session = f.session) (accepts : s.debugger.net.accepts client.connection = true)
    (accepts' : t.debugger.net.accepts client.connection = true) :
    List.Forall₂ Push.Alike (s.pushed i (.advance i)) (t.pushed j (.advance j)) := by
  obtain ⟨ticket, session, stage⟩ := e
  obtain ⟨ticket', session', stage'⟩ := f
  cases same
  cases sends : stage.sends with
  | false =>
    rw [pushed_eq_nil (stage?_eq here) sends,
      pushed_eq_nil (stage?_eq there) (like.sends.trans sends)]
    exact .nil
  | true =>
    obtain ⟨site, value, next, dialog, ask, key, rfl⟩ := Stage.sends_iff.1 sends
    obtain ⟨own, key', rfl⟩ := like.exists_sending
    have sending : s.At i ⟨ticket, session, site, value⟩ next (.sending dialog ask key) := here
    have sending' : t.At j ⟨ticket', session, site, value⟩ next (.sending dialog ask key') :=
      there
    rw [pushed_of_sending sending, pushed_of_sending sending', own, accepts, accepts']
    refine .cons ⟨rfl, rfl, rfl, fun name different => ?_⟩ .nil
    exact Attachment.find?_message_congr (Channel.find?_promptBody different _ _ _ _ _) _ _

/-! ## Runs -/

/-- The answers to prompts of the `i`-th evaluation that are given, and count,
    in an action. -/
def answered (s : Service) (i : Nat) : Action → List String
  | .submit key text =>
    match s.open? i with
    | some (_, key') => if key' = key then [text] else []
    | none => []
  | _ => []

/-- The answers to prompts of the `i`-th evaluation that are given, and count,
    in some actions. -/
def answers (s : Service) (i : Nat) : List Action → List String
  | [] => []
  | a :: later => s.answered i a ++ (s.act a).answers i later

/-- The key of the prompt that is with a client and can be answered. -/
def prompted? (s : Service) (i : Nat) : Option Key :=
  (s.evaluations[i]?.bind Evaluation.prompt?).filter s.debugger.accepts

/-- What happens when the only evaluation runs and is given some answers, one
    for each prompt. -/
def alone (s : Service) (answers : List String) : Nat → List Action
  | 0 => []
  | n + 1 =>
    match s.prompted? 0, answers with
    | some key, text :: answers => .submit key text :: (s.act (.submit key text)).alone answers n
    | _, _ => .advance 0 :: (s.act (.advance 0)).alone answers n

/-- While the actions are done, one client is attached and can be reached, no
    prompt of the `i`-th evaluation times out, and nobody else works on its
    session. -/
structure Undisturbed (s : Service) (i : Nat) (session : String) (client : Attachment)
    (later : List Action) : Prop where
  others : s.OthersEnded i session
  attached : ∀ n, n < later.length → (s.run (later.take n)).debugger.slot = some client
  accepts : ∀ n, n < later.length →
    (s.run (later.take n)).debugger.net.accepts client.connection = true
  inTime : ∀ n, later[n]? = some (.expire i) →
    (s.run (later.take n)).move? i Evaluation.timeOut? = none
  apart : ∀ a ∈ later, ¬ a.Concerns session

theorem alone_of_prompted {key : Key} (prompted : t.prompted? 0 = some key) (text : String)
    (answers : List String) (n : Nat) :
    t.alone (text :: answers) (n + 1) =
      .submit key text :: (t.act (.submit key text)).alone answers n := by
  simp only [alone, prompted]

theorem alone_of_not_prompted (unprompted : t.prompted? 0 = none) (answers : List String)
    (n : Nat) :
    t.alone answers (n + 1) = .advance 0 :: (t.act (.advance 0)).alone answers n := by
  simp only [alone, unprompted]

theorem OthersEnded.of_apart (h : s.OthersEnded i session) {a : Action}
    (apart : ¬ a.Concerns session) : (s.act a).OthersEnded i session := by
  refine h.act ?_
  rintro code rfl
  exact apart rfl

/-! ## Standing alike -/

/-- The answers that are left for the evaluation that runs alone are those that
    the other will be given, and before them the one that it has been given but
    has not taken yet. -/
inductive Due (left : List String) : Option (Ask × Except Error Reply) → List String → Prop
  | nothing : Due left none left
  | answer {ask : Ask} (text : String) :
    Due left (some (ask, Reply.parse ask.kind text)) (text :: left)

/-- The `i`-th evaluation of `s` and the only one of `t` stand alike. -/
structure Mirrored (s t : Service) (i : Nat) (session : String) (client : Attachment)
    (stage stage' : Stage) (left right : List String) : Prop where
  keyed : s.Keyed
  keyed' : t.Keyed
  here : s.evaluations[i]? = some ⟨i, session, stage⟩
  there : t.evaluations[0]? = some ⟨0, session, stage'⟩
  like : stage.Like client stage'
  free : stage.Entered → s.debugger.isTripped i = false
  tripped : s.debugger.isTripped i = t.debugger.isTripped 0
  policy : s.debugger.sessions.policy session = t.debugger.sessions.policy session
  attached' : t.debugger.slot = some client
  accepts' : t.debugger.net.accepts client.connection = true
  due : Due left (stage.recorded s.debugger) right
  unanswered : stage'.recorded t.debugger = none

variable {stage stage' : Stage} {left right : List String}

theorem Mirrored.agree (h : Mirrored s t i session client stage stage' left right)
    (attached : s.debugger.slot = some client)
    (accepts : s.debugger.net.accepts client.connection = true) :
    Debugger.Agree s.debugger t.debugger ⟨i, session, stage⟩ ⟨0, session, stage'⟩ client where
  sound := h.keyed.sound
  sound' := h.keyed'.sound
  tripped := h.tripped
  session := rfl
  policy := h.policy
  attached := attached
  attached' := h.attached'
  accepts := accepts
  accepts' := h.accepts'

/-- Who does not wait for an answer is not prompted. -/
theorem prompted?_eq_none {e : Evaluation} (there : t.evaluations[i]? = some e)
    (unprompted : ∀ site value next dialog ask key,
      e.stage = .paused site value next (.awaiting dialog ask key) →
        t.debugger.accepts key = false) : t.prompted? i = none := by
  obtain ⟨ticket, session, stage⟩ := e
  rw [prompted?, there, Option.bind_some, Evaluation.prompt?]
  cases stage with
  | running | ended => rfl
  | paused site value next pause =>
    cases pause with
    | awaiting dialog ask key =>
      have closed := unprompted site value next dialog ask key rfl
      exact Option.filter_some_neg (by simp [closed])
    | arrived | admitted | unskipped | unattached | asking | sending | refused | answered => rfl

/-- Both make the same step. -/
theorem Mirrored.step (h : Mirrored s t i session client stage stage' left right)
    {stage₁ stage₁' : Stage} {d₁ d₁' : Debugger}
    (steps : Steps ⟨i, session, stage⟩ s.debugger stage stage₁ d₁)
    (steps' : Steps ⟨0, session, stage'⟩ t.debugger stage' stage₁' d₁')
    (like : stage₁.Like client stage₁')
    (recorded : stage₁.recorded d₁ = stage.recorded s.debugger)
    (recorded' : stage₁'.recorded d₁' = stage'.recorded t.debugger) :
    Mirrored (s.act (.advance i)) (t.act (.advance 0)) i session client stage₁ stage₁' left
      right := by
  have moved := act_of_steps h.here steps
  have moved' := act_of_steps h.there steps'
  constructor
  case keyed => exact h.keyed.act _
  case keyed' => exact h.keyed'.act _
  case here => rw [moved, evaluation_moved h.here, if_pos rfl]
  case there => rw [moved', evaluation_moved h.there, if_pos rfl]
  case like => exact like
  case free =>
    intro entered
    rw [moved]
    exact Steps.free_of_entered (e := ⟨i, session, stage⟩) steps h.free entered
  case tripped =>
    rw [moved, moved']
    calc d₁.isTripped i
        _ = (stage.quits || s.debugger.isTripped i) :=
          Steps.isTripped (e := ⟨i, session, stage⟩) steps
        _ = (stage'.quits || t.debugger.isTripped 0) := by rw [h.like.quits, h.tripped]
        _ = d₁'.isTripped 0 := (Steps.isTripped (e := ⟨0, session, stage'⟩) steps').symm
  case policy =>
    rw [moved, moved']
    calc d₁.sessions.policy session
        _ = stage.policyAfter (s.debugger.sessions.policy session) :=
          Steps.policy (e := ⟨i, session, stage⟩) steps
        _ = stage'.policyAfter (t.debugger.sessions.policy session) := by
          rw [h.like.policyAfter, h.policy]
        _ = d₁'.sessions.policy session := (Steps.policy (e := ⟨0, session, stage'⟩) steps').symm
  case attached' =>
    rw [slot_act rfl]
    exact h.attached'
  case accepts' =>
    rw [moved', Service.moved, steps'.touches.accepts]
    exact h.accepts'
  case due =>
    rw [moved, Service.moved, recorded]
    exact h.due
  case unanswered =>
    rw [moved', Service.moved, recorded']
    exact h.unanswered

variable {site : Site} {value : Value} {next : Result → Run Result} {dialog : Dialog} {ask : Ask}
  {key key' : Key} {reply : Except Error Reply}

/-- What the evaluation that runs alone does when the other takes an answer: it
    is given the answer, and takes it. -/
theorem Mirrored.take
    (h : Mirrored s t i session client (.paused site value next (.awaiting dialog ask key))
      (.paused site value next (.awaiting dialog ask key')) left right)
    (replied : s.debugger.reply? key = some reply) :
    ∃ pre, (∀ n, t.alone right (pre.length + n) = pre ++ (t.run pre).alone left n) ∧
      t.pushes 0 pre = [] ∧
      Mirrored (s.act (.advance i)) (t.run pre) i session client
        (.paused site value next (.answered dialog ask reply))
        (.paused site value next (.answered dialog ask reply)) left left := by
  obtain ⟨text, rfl, rfl⟩ : ∃ text, Reply.parse ask.kind text = reply ∧ right = text :: left := by
    have due := h.due
    simp only [Stage.recorded, Pause.recorded, Pause.ask?, Option.bind_some, replied,
      Option.map_some] at due
    cases due with
    | answer text => exact ⟨text, rfl, rfl⟩
  have here : s.At i ⟨i, session, site, value⟩ next (.awaiting dialog ask key) := h.here
  have there : t.At 0 ⟨0, session, site, value⟩ next (.awaiting dialog ask key') := h.there
  have unanswered : t.debugger.reply? key' = none := by
    have none := h.unanswered
    simpa only [Stage.recorded, Pause.recorded, Pause.ask?, Option.bind_some,
      Option.map_eq_none_iff] using none
  have asked : t.ask? 0 = some (ask, key') := there.ask?
  -- the answer is given
  have prompted : t.prompted? 0 = some key' := by
    have accepts : t.debugger.accepts key' = true :=
      Debugger.accepts_iff.2 ⟨h.keyed'.pending 0 key' (held?_of_ask? asked), unanswered⟩
    rw [prompted?, h.there]
    exact Option.filter_some_pos accepts
  have given : (t.act (.submit key' text)).At 0 ⟨0, session, site, value⟩ next
      (.awaiting dialog ask key') := there
  have replied' : (t.act (.submit key' text)).debugger.reply? key' =
      some (Reply.parse ask.kind text) := by
    rw [reply?_submit h.keyed' asked, unanswered, Option.none_or]
  -- and it is taken
  have closed : (t.act (.submit key' text)).prompted? 0 = none := by
    refine prompted?_eq_none given ?_
    intro _ _ _ _ _ _ same
    cases same
    rw [← Bool.not_eq_true, Debugger.accepts_iff, replied']
    exact fun open' => by cases open'.2
  obtain ⟨here₁, after⟩ := here.goes (.take replied)
  obtain ⟨there₁, after'⟩ := given.goes (.take replied')
  have after' : (t.run [.submit key' text, .advance 0]).debugger =
      (t.act (.submit key' text)).debugger.forget key' := after'
  refine ⟨[.submit key' text, .advance 0], fun n => ?_, ?_, ?_⟩
  · rw [List.length_cons, List.length_singleton, Nat.add_comm, alone_of_prompted prompted,
      alone_of_not_prompted closed]
    rfl
  · simp only [pushes, pushed, List.nil_append, List.append_nil]
    exact pushed_eq_nil (a := .advance 0) given.stage? rfl
  · constructor
    case keyed => exact h.keyed.act _
    case keyed' => exact h.keyed'.run _
    case here => exact here₁
    case there => exact there₁
    case like => exact .paused (.answered h.like.exists_awaiting.1)
    case free =>
      intro _
      rw [after]
      exact h.free trivial
    case tripped =>
      rw [after, after']
      exact h.tripped
    case policy =>
      rw [after, after']
      exact h.policy
    case attached' =>
      rw [after']
      exact h.attached'
    case accepts' =>
      rw [after']
      exact h.accepts'
    case due => exact .nothing
    case unanswered => rfl

/-! ## What others do -/

theorem isTripped_of_others (ticketed : s.Ticketed) {a : Action}
    (own : s.session? i = some session) (others : ¬ Moves i a) (apart : ¬ a.Concerns session) :
    (s.act a).debugger.isTripped i = s.debugger.isTripped i := by
  cases before : s.debugger.isTripped i with
  | true => exact isTripped_of_isTripped before
  | false =>
    refine isTripped_act ticketed own others ?_ before
    rintro rfl
    exact apart rfl

theorem answered_eq_nil {a : Action} (h : ∀ ask key text, s.open? i = some (ask, key) →
    a ≠ .submit key text) : s.answered i a = [] := by
  cases a with
  | submit key text =>
    rw [answered]
    split
    · rename_i ask key' isOpen
      rw [if_neg]
      rintro rfl
      exact h ask key' text isOpen rfl
    · rfl
  | attach | release | setRefusing | setPolicy | close | start | advance | expire => rfl

theorem Due.of_others (keyed : s.Keyed) {e : Evaluation} (here : s.evaluations[i]? = some e)
    {a : Action} (others : ¬ Moves i a)
    (due : Due (s.answered i a ++ left) (e.stage.recorded s.debugger) right) :
    Due left (e.stage.recorded (s.act a).debugger) right := by
  rw [Stage.recorded_eq] at due ⊢
  cases asked : e.stage.ask? with
  | none =>
    have unasked : s.answered i a = [] := by
      refine answered_eq_nil fun ask key text isOpen => ?_
      rw [open?, ask?_eq (stage?_eq here), asked] at isOpen
      cases isOpen
    rw [asked, unasked] at due
    exact due
  | some prompt =>
    obtain ⟨ask, key⟩ := prompt
    rw [asked] at due
    simp only [Option.bind_some] at due ⊢
    have asks : s.ask? i = some (ask, key) := (ask?_eq (stage?_eq here)).trans asked
    by_cases submits : ∃ text, a = .submit key text
    · obtain ⟨text, rfl⟩ := submits
      rw [reply?_submit keyed asks]
      cases unanswered : s.debugger.reply? key with
      | none =>
        have accepts : s.debugger.accepts key = true :=
          Debugger.accepts_iff.2 ⟨keyed.pending i key (held?_of_ask? asks), unanswered⟩
        have counts : s.answered i (.submit key text) = [text] := by
          simp only [answered, open?_eq here asked accepts, if_true]
        rw [unanswered, counts] at due
        cases due
        exact .answer text
      | some reply =>
        have ignored : s.answered i (.submit key text) = [] := by
          refine answered_eq_nil fun ask' key' text' isOpen same => ?_
          cases same
          obtain ⟨-, accepts⟩ := Option.filter_eq_some_iff.1 isOpen
          have none := (Debugger.accepts_iff.1 accepts).2
          rw [unanswered] at none
          cases none
        rw [unanswered, ignored] at due
        exact due
    · have same : (s.act a).debugger.reply? key = s.debugger.reply? key := by
        rcases find?_act keyed (held?_of_ask? asks) others with same | submits'
        · rw [Debugger.reply?, same, Debugger.reply?]
        · exact absurd submits' submits
      have nothing : s.answered i a = [] := by
        refine answered_eq_nil fun ask' key' text isOpen => ?_
        rintro rfl
        obtain ⟨asks', -⟩ := Option.filter_eq_some_iff.1 isOpen
        rw [asks] at asks'
        cases asks'
        exact submits ⟨text, rfl⟩
      rw [nothing] at due
      rw [same]
      exact due

/-- What others do leaves the two standing alike. -/
theorem Mirrored.others {a : Action}
    (h : Mirrored s t i session client stage stage' (s.answered i a ++ left) right)
    (ticketed : s.Ticketed) (ended : s.OthersEnded i session) (others : ¬ Moves i a)
    (apart : ¬ a.Concerns session) :
    Mirrored (s.act a) t i session client stage stage' left right := by
  have own : s.session? i = some session := by rw [session?, h.here, Option.map_some]
  have tripped := isTripped_of_others ticketed own others apart
  constructor
  case keyed => exact h.keyed.act a
  case keyed' => exact h.keyed'
  case here => exact evaluation_act h.here others
  case there => exact h.there
  case like => exact h.like
  case free => exact fun entered => tripped.trans (h.free entered)
  case tripped => exact tripped.trans h.tripped
  case policy =>
    refine (policy_act ended others ?_ ?_ ?_).trans h.policy
    · rintro code rfl
      exact apart rfl
    · rintro rfl
      exact apart rfl
    · rintro policy rfl
      exact apart rfl
  case attached' => exact h.attached'
  case accepts' => exact h.accepts'
  case due => exact Due.of_others h.keyed h.here others h.due
  case unanswered => exact h.unanswered

/-! ## Following a run -/

/-- An evaluation that makes a step has no prompt that could be answered. -/
theorem Mirrored.unprompted (h : Mirrored s t i session client stage stage' left right)
    {stage₁' : Stage} {d₁' : Debugger}
    (steps' : Steps ⟨0, session, stage'⟩ t.debugger stage' stage₁' d₁') : t.prompted? 0 = none := by
  refine prompted?_eq_none h.there ?_
  rintro site value next dialog ask key' rfl
  have none := h.unanswered
  simp only [Stage.recorded, Pause.recorded, Pause.ask?, Option.bind_some,
    Option.map_eq_none_iff] at none
  have free : t.debugger.isTripped 0 = false := by
    rw [← h.tripped]
    exact h.free (h.like.entered_iff.1 trivial)
  cases steps' with
  | goes goes =>
    cases goes with
    | take replied =>
      rw [none] at replied
      cases replied
  | leaves leaves =>
    cases leaves with
    | lost gone =>
      rw [← Bool.not_eq_true, Debugger.accepts_iff]
      exact fun pending => gone pending.1
    | awaiting _ tripped =>
      change t.debugger.isTripped 0 = true at tripped
      rw [free] at tripped
      cases tripped

/-- One action is followed by at most two of the evaluation that runs alone. -/
theorem Mirrored.follow {a : Action}
    (h : Mirrored s t i session client stage stage' (s.answered i a ++ left) right)
    (ticketed : s.Ticketed) (ended : s.OthersEnded i session)
    (attached : s.debugger.slot = some client)
    (accepts : s.debugger.net.accepts client.connection = true)
    (inTime : a = .expire i → s.move? i Evaluation.timeOut? = none)
    (apart : ¬ a.Concerns session) :
    ∃ pre stage₁ stage₁' right₁,
      (∀ n, t.alone right (pre.length + n) = pre ++ (t.run pre).alone right₁ n) ∧
      List.Forall₂ Push.Alike (s.pushed i a) (t.pushes 0 pre) ∧
      Mirrored (s.act a) (t.run pre) i session client stage₁ stage₁' left right₁ := by
  have nothing : ∀ n,
      t.alone right (([] : List Action).length + n) = [] ++ (t.run []).alone right n := by
    intro n
    rw [List.length_nil, Nat.zero_add, List.nil_append]
    rfl
  by_cases own : a = .advance i
  · subst own
    rcases advance_of_act h.here rfl with idle | ⟨stage₁, d₁, steps, moved⟩
    · have silent : s.pushed i (.advance i) = [] := by
        have offered := offered_advance s i
        rw [idle] at offered
        simpa using offered
      rw [idle, silent]
      exact ⟨[], stage, stage', right, nothing, .nil, h⟩
    · have agree := h.agree attached accepts
      have pending : ∀ key, stage.held? = some key → key ∈ s.debugger.channel.keys :=
        fun key hold => h.keyed.pending i key ((held?_eq (stage?_eq h.here)).trans hold)
      rcases Steps.mirror agree steps h.like pending h.free with
        ⟨stage₁', d₁', steps', like, recorded, recorded'⟩ |
        ⟨site, value, next, dialog, ask, key, reply, awaiting, -, replied, -⟩
      · refine ⟨[.advance 0], stage₁, stage₁', right, fun n => ?_, ?_, ?_⟩
        · rw [List.length_singleton, Nat.add_comm, alone_of_not_prompted (h.unprompted steps')]
          rfl
        · rw [pushes, pushes, List.append_nil]
          exact pushed_alike h.here h.there h.like rfl accepts h.accepts'
        · exact h.step steps steps' like recorded recorded'
      · cases awaiting
        obtain ⟨-, key', rfl⟩ := h.like.exists_awaiting
        obtain ⟨pre, alone, quiet, after⟩ := Mirrored.take h replied
        refine ⟨pre, _, _, left, alone, ?_, after⟩
        rw [quiet, pushed_eq_nil (stage?_eq h.here) rfl]
        exact .nil
  · have silent : s.pushed i a = [] := by
      rw [List.eq_nil_iff_forall_not_mem]
      intro x sent
      exact own (exists_sending_of_pushed sent).1
    rw [silent]
    by_cases expires : a = .expire i
    · subst expires
      have idle : s.act (.expire i) = s := by rw [act, inTime rfl, note]
      rw [idle]
      exact ⟨[], stage, stage', right, nothing, .nil, h⟩
    · have others : ¬ Moves i a := fun moves => moves.elim own expires
      exact ⟨[], stage, stage', right, nothing, .nil, h.others ticketed ended others apart⟩

theorem Undisturbed.tail {a : Action} {later : List Action}
    (h : s.Undisturbed i session client (a :: later)) :
    (s.act a).Undisturbed i session client later where
  others := h.others.of_apart (h.apart a List.mem_cons_self)
  attached n lt := h.attached (n + 1) (Nat.succ_lt_succ lt)
  accepts n lt := h.accepts (n + 1) (Nat.succ_lt_succ lt)
  inTime n there := h.inTime (n + 1) there
  apart b mem := h.apart b (List.mem_cons_of_mem a mem)

/-- A run is followed by one of the evaluation that runs alone. -/
theorem Mirrored.run {later : List Action}
    (h : Mirrored s t i session client stage stage' (s.answers i later) right)
    (ticketed : s.Ticketed) (undisturbed : s.Undisturbed i session client later) :
    ∃ m stage₁ stage₁' right₁,
      List.Forall₂ Push.Alike (s.pushes i later) (t.pushes 0 (t.alone right m)) ∧
      Mirrored (s.run later) (t.run (t.alone right m)) i session client stage₁ stage₁' []
        right₁ := by
  induction later generalizing s t stage stage' right with
  | nil => exact ⟨0, stage, stage', right, .nil, h⟩
  | cons a later ih =>
    have first : 0 < (a :: later).length := Nat.zero_lt_succ _
    obtain ⟨pre, stage₁, stage₁', right₁, starts, alike, after⟩ :=
      h.follow ticketed undisturbed.others (undisturbed.attached 0 first)
        (undisturbed.accepts 0 first)
        (fun same => undisturbed.inTime 0 (congrArg some same))
        (undisturbed.apart a List.mem_cons_self)
    obtain ⟨m, stage₂, stage₂', right₂, alike', after'⟩ :=
      ih after (ticketed.act a) undisturbed.tail
    refine ⟨pre.length + m, stage₂, stage₂', right₂, ?_, ?_⟩
    · rw [starts m, pushes_append, pushes]
      exact List.rel_append alike alike'
    · rw [starts m, run_append]
      exact after'

theorem Mirrored.result? (h : Mirrored s t i session client stage stage' left right) :
    s.result? i = t.result? 0 := by
  rw [Service.result?, Service.result?, h.here, h.there]
  cases h.like <;> rfl

/-! ## On one's own -/

/-- A client is attached, and one evaluation has started. -/
def solo (settings : Settings) (client : Attachment) (session code : String) : Service :=
  ((new settings).act (.attach client false)).act (.start session code)

/-- An evaluation that starts stands like one that starts alone. -/
theorem Mirrored.start (reachable : s.Reachable) (code : String) (left : List String) :
    Mirrored (s.act (.start session code)) (solo s.debugger.settings client session code)
      s.evaluations.length session client (.running (Debugger.runOf code))
      (.running (Debugger.runOf code)) left left := by
  have free : (s.act (.start session code)).debugger.isTripped s.evaluations.length = false := by
    simp only [Debugger.isTripped, List.contains_eq_mem, decide_eq_false_iff_not]
    exact fun mem => Nat.lt_irrefl _ (reachable.ticketed.tripped _ mem)
  constructor
  case keyed => exact reachable.keyed.act _
  case keyed' => exact (Keyed.new _).run [.attach client false, .start session code]
  case here =>
    rw [start_evaluation, reachable.ticketed.count]
  case there => rfl
  case like => exact .running
  case free => exact fun _ => free
  case tripped => exact free
  case policy =>
    have fresh : (s.act (.start session code)).debugger.sessions.policy session = .nothing :=
      SessionStore.policy_begin_self _
    have fresh' : (solo s.debugger.settings client session code).debugger.sessions.policy session =
        .nothing := SessionStore.policy_begin_self _
    rw [fresh, fresh']
  case attached' => rfl
  case accepts' => rfl
  case due => exact .nothing
  case unanswered => rfl

/-- What the `i`-th evaluation of `s` does is what the only one of `t` does. -/
structure Likewise (s t : Service) (i : Nat) (session : String) (later own : List Action) :
    Prop where
  result : (s.run later).result? i = (t.run own).result? 0
  prompts : List.Forall₂ Push.Alike (s.pushes i later) (t.pushes 0 own)
  policy : (s.run later).debugger.sessions.policy session =
    (t.run own).debugger.sessions.policy session

/-- An evaluation that nobody disturbs does what it does when it runs alone and
    is given the same answers. -/
theorem runs_as_alone (reachable : s.Reachable) (code : String) (later : List Action)
    (undisturbed : (s.act (.start session code)).Undisturbed s.evaluations.length session client
      later) :
    ∃ m, (s.act (.start session code)).Likewise (solo s.debugger.settings client session code)
      s.evaluations.length session later
      ((solo s.debugger.settings client session code).alone
        ((s.act (.start session code)).answers s.evaluations.length later) m) := by
  obtain ⟨m, stage, stage', right, alike, after⟩ :=
    (Mirrored.start reachable code _).run (reachable.ticketed.act _) undisturbed
  exact ⟨m, after.result?, alike, after.policy⟩

/-- Session "b" waits at a breakpoint. -/
def waiting : List Action :=
  .attach ⟨1, 10⟩ false :: .start "b" "#break 2" :: List.replicate 7 (.advance 0)

/-- Session "a" comes to a breakpoint, too, both are answered in turn, and both
    go on. -/
def interleaved : List Action :=
  List.replicate 7 (.advance 1) ++
    [.submit (.nth 2) "eval", .submit (.nth 1) "inject", .advance 0, .advance 1, .advance 0,
      .advance 0, .advance 1, .advance 1, .advance 1, .advance 0, .submit (.nth 4) "(+ 1 1)",
      .submit (.nth 3) "7"] ++
    List.replicate 3 (.advance 0) ++ List.replicate 4 (.advance 1) ++
    [.submit (.nth 5) "continue", .advance 1, .advance 1, .advance 1]

theorem undisturbed_interleaved : (((new .default).run waiting).act
    (.start "a" "#break 1")).Undisturbed 1 "a" ⟨1, 10⟩ interleaved where
  others := by
    intro j different own
    have lt : j < 2 := lt_of_session? own
    have first : j = 0 := by omega
    subst first
    exact absurd own (by decide +kernel)
  attached := by decide +kernel
  accepts := by decide +kernel
  inTime := by
    intro n there
    have mem := List.mem_of_getElem? there
    simp [interleaved] at mem
  apart := by
    have others : ∀ a ∈ interleaved,
        (∃ j, a = .advance j) ∨ ∃ key text, a = .submit key text := by
      simp [interleaved]
    intro a mem
    rcases others a mem with ⟨j, rfl⟩ | ⟨key, text, rfl⟩
    · exact id
    · exact id

theorem runs_as_alone_interleaved : ((new .default).run waiting).Reachable ∧
    (((new .default).run waiting).act (.start "a" "#break 1")).Undisturbed 1 "a" ⟨1, 10⟩
      interleaved ∧
    ∃ m, (((new .default).run waiting).act (.start "a" "#break 1")).Likewise
      (solo ((new .default).run waiting).debugger.settings ⟨1, 10⟩ "a" "#break 1") 1 "a" interleaved
      ((solo ((new .default).run waiting).debugger.settings ⟨1, 10⟩ "a" "#break 1").alone
        ((((new .default).run waiting).act (.start "a" "#break 1")).answers 1 interleaved) m) :=
  ⟨⟨.default, waiting, rfl⟩, undisturbed_interleaved,
    runs_as_alone ⟨.default, waiting, rfl⟩ "#break 1" interleaved undisturbed_interleaved⟩

end Service

end Stepper.Debug
