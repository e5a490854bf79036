/-
  Which breakpoints prompt.

  A program comes to breakpoints in an order of its own.  The policy of the
  session, as commands and top-level forms change it, selects some of them
  (`Selects`), and exactly these are shown to the client, one prompt each
  (`selects_of_stepping`).
-/
import Stepper.Proofs.Service.Transparency

namespace Stepper.Debug

open Stepper.Eval

/-! ## Exchanges -/

/-- What an evaluation and its client tell each other. -/
inductive Exchange where
  /-- A message that the evaluation sends. -/
  | asked (message : Delivery)
  /-- A reply that the evaluation takes. -/
  | took (reply : Except Error Reply)

/-- The prompt for a command at a breakpoint. -/
def commandPrompt (client : Attachment) (session : String) (site : Site) (value : Value)
    (key : Key) : Delivery :=
  ⟨client.connection,
   client.message ["awaiting-input"]
     (Hit.promptBody ⟨0, session, site, value⟩ ⟨client, none⟩ .command key),
   false⟩

/-- The policy after a command at a place. -/
def SkipPolicy.after (policy : SkipPolicy) (c : Command) (place : Coordinate) : SkipPolicy :=
  match c with
  | .proceed => .everything
  | .out => .below place.parent
  | _ => policy

/-- What is exchanged if a policy, as it changes, selects from the forms and
    breakpoints that a program comes to. -/
inductive Selects (client : Attachment) (session : String) :
    SkipPolicy → List Event → List Exchange → Prop
  | done {policy} : Selects client session policy [] []
  | formStart {policy events exchanges}
    (rest : Selects client session policy.atTopLevel events exchanges) :
    Selects client session policy (.formStart :: events) exchanges
  | skip {policy : SkipPolicy} {site value events exchanges}
    (skips : policy.skips site.place = true)
    (rest : Selects client session policy events exchanges) :
    Selects client session policy (.hit site value :: events) exchanges
  | prompt {policy : SkipPolicy} {site value events exchanges c} (key : Key)
    (prompts : policy.skips site.place = false) (steps : c.steps = true)
    (rest : Selects client session (policy.after c site.place) events exchanges) :
    Selects client session policy (.hit site value :: events)
      (.asked (commandPrompt client session site value key) :: .took (.ok (.command c)) ::
        exchanges)

namespace Service

/-- The reply that is taken between two stages. -/
def taken? : Option Stage → Option Stage → Option (Except Error Reply)
  | some (.paused _ _ _ (.awaiting ..)), some (.paused _ _ _ (.answered _ _ reply)) => some reply
  | _, _ => none

/-- What the `i`-th evaluation exchanges in a step. -/
def exchanged (s s' : Service) (i : Nat) : List Exchange :=
  (s'.debugger.net.offered.drop s.debugger.net.offered.length).map .asked ++
    (taken? (s.stage? i) (s'.stage? i)).toList.map .took

/-- What the `i`-th evaluation exchanges in the first steps of a schedule. -/
def transcript (s : Service) (schedule : Nat → Action) (i : Nat) : Nat → List Exchange
  | 0 => []
  | n + 1 =>
    s.transcript schedule i n ++
      match schedule n with
      | .advance j => if j = i then exchanged (s.after schedule n) (s.after schedule (n + 1)) i else []
      | _ => []

/-- All other evaluations of the session have ended. -/
def OthersEnded (s : Service) (i : Nat) (session : String) : Prop :=
  ∀ j, j ≠ i → s.session? j = some session → s.result? j ≠ none

/-- Until the `i`-th evaluation ends, nobody else works on its session. -/
structure Alone (s : Service) (schedule : Nat → Action) (i : Nat) (session : String) : Prop where
  others : s.OthersEnded i session
  unstarted : ∀ n code, (s.after schedule n).result? i = none → schedule n ≠ .start session code
  unclosed : ∀ n, (s.after schedule n).result? i = none → schedule n ≠ .close session
  unset : ∀ n policy, (s.after schedule n).result? i = none →
    schedule n ≠ .setPolicy session policy

end Service

/-! ## Strides -/

/-- A reply with which the evaluation goes on. -/
def Stepping (reply : Except Error Reply) : Prop :=
  ∃ c : Command, c.steps = true ∧ reply = .ok (.command c)

/-- At a breakpoint, the client has been asked for nothing but a command with
    which the evaluation goes on. -/
def Pause.Direct (client : Attachment) (d : Debugger) : Pause → Prop
  | .arrived | .admitted | .unskipped => True
  | .asking dialog ask => dialog = ⟨client, none⟩ ∧ ask = .command
  | .sending dialog ask key | .awaiting dialog ask key =>
    (dialog = ⟨client, none⟩ ∧ ask = .command) ∧
      ∀ reply, d.reply? key = some reply → Stepping reply
  | .answered dialog ask reply => (dialog = ⟨client, none⟩ ∧ ask = .command) ∧ Stepping reply
  | .unattached | .refused .. => False

/-- At a breakpoint, if at one, the client has been asked for nothing else. -/
def Stage.Direct (client : Attachment) (d : Debugger) : Stage → Prop
  | .paused _ _ _ pause => pause.Direct client d
  | _ => True

/-- The steps of an evaluation that is asked for nothing else, with what is
    exchanged. -/
inductive Stride (client : Attachment) (e : Evaluation) (d : Debugger) :
    Stage → Stage → Debugger → List Exchange → Prop
  | finish {result} :
    Stride client e d (.running (.done result)) (.ended result)
      { d with sessions := d.sessions.finish e.session e.ticket } []
  | poll {next} : Stride client e d (.running (.poll next)) (.running (next false)) d []
  | formStart {next} :
    Stride client e d (.running (.formStart next)) (.running next)
      { d with sessions := d.sessions.startForm e.session } []
  | arrive {site value next} :
    Stride client e d (.running (.hit site value next)) (.paused site value next .arrived) d []
  | pass {site value next} :
    Stride client e d (.paused site value next .arrived) (.paused site value next .admitted) d []
  | skip {site value next} (skips : d.sessions.skips e.session site.place = true) :
    Stride client e d (.paused site value next .admitted) (.running (next (.ok value))) d []
  | unskip {site value next} (prompts : d.sessions.skips e.session site.place = false) :
    Stride client e d (.paused site value next .admitted) (.paused site value next .unskipped) d []
  | find {site value next} :
    Stride client e d (.paused site value next .unskipped)
      (.paused site value next (.asking ⟨client, none⟩ .command)) d []
  | ask {site value next} :
    Stride client e d (.paused site value next (.asking ⟨client, none⟩ .command))
      (.paused site value next (.sending ⟨client, none⟩ .command d.channel.nextKey))
      (d.register .command) []
  | send {site value next key} (accepts : d.net.accepts client.connection = true) :
    Stride client e d (.paused site value next (.sending ⟨client, none⟩ .command key))
      (.paused site value next (.awaiting ⟨client, none⟩ .command key))
      (d.offer client (Hit.promptBody (e.hit site value) ⟨client, none⟩ .command key))
      [.asked (commandPrompt client e.session site value key)]
  | take {site value next key c} (steps : Command.steps c = true) :
    Stride client e d (.paused site value next (.awaiting ⟨client, none⟩ .command key))
      (.paused site value next (.answered ⟨client, none⟩ .command (.ok (.command c))))
      (d.forget key) [.took (.ok (.command c))]
  | go {site value next c d'} (steps : Command.steps c = true)
    (obeyed : (e.hit site value).obey d ⟨client, none⟩ c = .resume (.ok value) d') :
    Stride client e d
      (.paused site value next (.answered ⟨client, none⟩ .command (.ok (.command c))))
      (.running (next (.ok value))) d' []

variable {client : Attachment} {d d' : Debugger} {e : Evaluation} {hit : Hit}

section

variable (attached : d.slot = some client)
include attached

theorem Goes.stride {site : Site} {value : Value} {next : Result → Run Result} {p q : Pause}
    (goes : Goes (e.hit site value) d p q d') (accepts : d.net.accepts client.connection = true)
    (direct : p.Direct client d) :
    ∃ exchanges,
      Stride client e d (.paused site value next p) (.paused site value next q) d' exchanges := by
  cases goes with
  | pass => exact ⟨_, .pass⟩
  | unskip prompts => exact ⟨_, .unskip prompts⟩
  | find found =>
    rw [attached] at found
    cases found
    exact ⟨_, .find⟩
  | wait detached =>
    rw [attached] at detached
    cases detached
  | found => exact direct.elim
  | ask =>
    obtain ⟨rfl, rfl⟩ := direct
    exact ⟨_, .ask⟩
  | send _ =>
    obtain ⟨⟨rfl, rfl⟩, -⟩ := direct
    exact ⟨_, .send accepts⟩
  | refuse refuses =>
    obtain ⟨⟨rfl, rfl⟩, -⟩ := direct
    rw [accepts] at refuses
    cases refuses
  | take replied =>
    obtain ⟨⟨rfl, rfl⟩, stepping⟩ := direct
    obtain ⟨c, steps, rfl⟩ := stepping _ replied
    exact ⟨_, .take steps⟩
  | inject | eval =>
    obtain ⟨-, c, steps, same⟩ := direct
    cases same
    cases steps
  | «show» =>
    obtain ⟨⟨-, same⟩, -⟩ := direct
    cases same

theorem Leaves.stride {site : Site} {value : Value} {next : Result → Run Result} {p : Pause}
    {answer : Result} (leaves : Leaves (e.hit site value) d p answer d')
    (free : d.isTripped e.ticket = false)
    (pending : ∀ key, p.held? = some key → key ∈ d.channel.keys) (direct : p.Direct client d) :
    ∃ exchanges,
      Stride client e d (.paused site value next p) (.running (next answer)) d' exchanges := by
  cases leaves with
  | stopped tripped | awaiting _ tripped =>
    rw [free] at tripped
    cases tripped
  | unattached | refused => exact direct.elim
  | skip skips => exact ⟨_, .skip skips⟩
  | alone detached =>
    rw [attached] at detached
    cases detached
  | lost gone => exact absurd (pending _ rfl) gone
  | next | proceed | out =>
    obtain ⟨⟨rfl, -⟩, -⟩ := direct
    exact ⟨_, .go rfl rfl⟩
  | quit =>
    obtain ⟨-, c, steps, same⟩ := direct
    cases same
    cases steps
  | failed | noCommand =>
    obtain ⟨-, c, -, same⟩ := direct
    cases same
  | noExpression kind =>
    obtain ⟨⟨-, same⟩, -⟩ := direct
    exact absurd same kind
  | inject | eval =>
    obtain ⟨⟨-, same⟩, -⟩ := direct
    cases same

theorem Steps.stride {stage stage' : Stage} (steps : Steps e d stage stage' d')
    (free : d.isTripped e.ticket = false) (accepts : d.net.accepts client.connection = true)
    (pending : ∀ key, stage.held? = some key → key ∈ d.channel.keys)
    (direct : stage.Direct client d) :
    ∃ exchanges, Stride client e d stage stage' d' exchanges := by
  cases steps with
  | finish => exact ⟨_, .finish⟩
  | poll =>
    rw [free]
    exact ⟨_, .poll⟩
  | formStart => exact ⟨_, .formStart⟩
  | arrive => exact ⟨_, .arrive⟩
  | goes goes => exact goes.stride attached accepts direct
  | leaves leaves => exact leaves.stride attached free pending direct

end

theorem Stride.direct {stage stage' : Stage} {exchanges : List Exchange}
    (stride : Stride client e d stage stage' d' exchanges) (sound : d.channel.Sound)
    (direct : stage.Direct client d) : stage'.Direct client d' := by
  cases stride with
  | finish | poll | formStart | arrive | pass | skip | unskip | go => exact trivial
  | find => exact ⟨rfl, rfl⟩
  | ask =>
    refine ⟨⟨rfl, rfl⟩, fun reply replied => ?_⟩
    rw [Debugger.reply?_register sound] at replied
    cases replied
  | send => exact direct
  | take steps => exact ⟨⟨rfl, rfl⟩, _, steps, rfl⟩

theorem Stride.tripped {stage stage' : Stage} {exchanges : List Exchange}
    (stride : Stride client e d stage stage' d' exchanges) : d'.tripped = d.tripped := by
  cases stride with
  | finish | poll | formStart | arrive | pass | skip | unskip | find | ask | send | take => rfl
  | @go _ _ _ c _ steps obeyed =>
    cases c with
    | next | proceed | out =>
      cases obeyed
      rfl
    | inject | eval | quit => cases steps

theorem Pause.Direct.of_others {p : Pause} (h : p.Direct client d)
    (replies : ∀ ask key, p.ask? = some (ask, key) → d'.reply? key = d.reply? key ∨
      ∃ reply, d'.reply? key = some reply ∧ (ask = .command → Stepping reply)) :
    p.Direct client d' := by
  cases p with
  | arrived | admitted | unskipped | unattached | asking | refused | answered => exact h
  | sending dialog ask key | awaiting dialog ask key =>
    obtain ⟨same, stepping⟩ := h
    refine ⟨same, fun reply replied => ?_⟩
    rcases replies ask key rfl with unchanged | ⟨reply', replied', steps⟩
    · exact stepping reply (unchanged ▸ replied)
    · rw [replied'] at replied
      cases replied
      exact steps same.2

theorem Stage.Direct.of_others {stage : Stage} (h : stage.Direct client d)
    (replies : ∀ ask key, stage.ask? = some (ask, key) → d'.reply? key = d.reply? key ∨
      ∃ reply, d'.reply? key = some reply ∧ (ask = .command → Stepping reply)) :
    stage.Direct client d' := by
  cases stage with
  | running | ended => exact trivial
  | paused => exact Pause.Direct.of_others h replies

/-- What is exchanged in a stride is what the service notes. -/
theorem Stride.noted {stage stage' : Stage} {exchanges : List Exchange}
    (stride : Stride client e d stage stage' d' exchanges) :
    (d'.net.offered.drop d.net.offered.length).map Exchange.asked ++
      (Service.taken? (some stage) (some stage')).toList.map Exchange.took = exchanges := by
  have silent : d'.net = d.net → Service.taken? (some stage) (some stage') = none →
      (d'.net.offered.drop d.net.offered.length).map Exchange.asked ++
        (Service.taken? (some stage) (some stage')).toList.map Exchange.took = [] := by
    intro same nothing
    rw [same, nothing, List.drop_length]
    rfl
  cases stride with
  | finish | poll | formStart | arrive | pass | skip | unskip | find | ask => exact silent rfl rfl
  | send accepts =>
    simp only [Debugger.offer, Network.offer, List.drop_left, accepts]
    rfl
  | take steps =>
    rw [Debugger.forget, List.drop_length]
    rfl
  | @go _ _ _ c _ steps obeyed =>
    refine silent ?_ rfl
    cases c with
    | next | proceed | out =>
      cases obeyed
      rfl
    | inject | eval | quit => cases steps

/-! ## What is still to be exchanged -/

/-- What may be exchanged from a stage on. -/
def Stage.Rest (client : Attachment) (session : String) (policy : SkipPolicy) :
    Stage → List Exchange → Prop
  | .running rest, exchanges => Selects client session policy rest.trace exchanges
  | .ended _, exchanges => exchanges = []
  | .paused site value next pause, exchanges =>
    match pause with
    | .arrived | .admitted =>
      Selects client session policy (.hit site value :: (next (.ok value)).trace) exchanges
    | .awaiting .. =>
      ∃ c later, Command.steps c = true ∧ exchanges = .took (.ok (.command c)) :: later ∧
        Selects client session (policy.after c site.place) (next (.ok value)).trace later
    | .answered _ _ reply =>
      ∀ c, reply = .ok (.command c) →
        Selects client session (policy.after c site.place) (next (.ok value)).trace exchanges
    | _ =>
      ∃ key c later, Command.steps c = true ∧
        exchanges = .asked (commandPrompt client session site value key) ::
          .took (.ok (.command c)) :: later ∧
        Selects client session (policy.after c site.place) (next (.ok value)).trace later

/-- Whatever may follow a stride, may follow what was exchanged in it. -/
theorem Stride.rest {stage stage' : Stage} {exchanges later : List Exchange}
    (stride : Stride client e d stage stage' d' exchanges)
    (rest : stage'.Rest client e.session (d'.sessions.policy e.session) later) :
    stage.Rest client e.session (d.sessions.policy e.session) (exchanges ++ later) := by
  cases stride with
  | finish =>
    cases rest
    exact .done
  | poll | arrive | pass => exact rest
  | formStart =>
    rw [SessionStore.policy_startForm_self] at rest
    exact .formStart rest
  | skip skips => exact .skip skips rest
  | unskip prompts =>
    obtain ⟨key, c, later, steps, rfl, rest⟩ := rest
    exact .prompt key prompts steps rest
  | find | ask => exact rest
  | @send _ _ _ key =>
    obtain ⟨c, later, steps, rfl, rest⟩ := rest
    exact ⟨key, c, later, steps, rfl, rest⟩
  | @take _ _ _ _ c steps => exact ⟨c, later, steps, rfl, rest c rfl⟩
  | @go site value next c _ steps obeyed =>
    intro c' same
    cases same
    cases c with
    | next =>
      cases obeyed
      exact rest
    | proceed | out =>
      cases obeyed
      rw [Debugger.setPolicy, SessionStore.policy_setPolicy_self] at rest
      exact rest
    | inject | eval | quit => cases steps

/-! ## Others -/

theorem Touches.policy {held : Option Key} {session : String} (touch : Touches e held d d')
    (other : e.session ≠ session) : d'.sessions.policy session = d.sessions.policy session := by
  cases touch with
  | nothing | register | offer | forget | trip => rfl
  | finish => exact SessionStore.policy_finish _
  | startForm => exact SessionStore.policy_startForm_of_ne (Ne.symm other)
  | setPolicy => exact SessionStore.policy_setPolicy_of_ne _ (Ne.symm other)

namespace Service

variable {s : Service} {schedule : Nat → Action} {i n : Nat} {session : String}

theorem OthersEnded.act (h : s.OthersEnded i session) {a : Action}
    (unstarted : ∀ code, a ≠ .start session code) : (s.act a).OthersEnded i session := by
  intro j different own runs
  rcases session?_act own with own | ⟨code, same⟩
  · obtain ⟨result, ended⟩ := Option.ne_none_iff_exists'.1 (h j different own)
    have outcome : s.outcome? j = some (.ofResult result) := by rw [outcome?, ended, Option.map_some]
    obtain ⟨e, result', here, ended⟩ := ended_of_outcome? outcome
    have after := outcome?_of_ended (ended_act here ended a) ended
    rw [outcome?, runs] at after
    cases after
  · exact unstarted code same

/-- The policy of a session is changed by its evaluations and on demand only. -/
theorem policy_act (h : s.OthersEnded i session) {a : Action} (others : ¬ Moves i a)
    (unstarted : ∀ code, a ≠ .start session code) (unclosed : a ≠ .close session)
    (unset : ∀ policy, a ≠ .setPolicy session policy) :
    (s.act a).debugger.sessions.policy session = s.debugger.sessions.policy session := by
  refine act_induction s a fun u change => ?_
  cases change with
  | idle => rfl
  | outside out =>
    cases out with
    | attach | release | setRefusing | submit => rfl
    | @setPolicy other policy =>
      refine SessionStore.policy_setPolicy_of_ne _ ?_
      rintro rfl
      exact unset policy rfl
    | @close other =>
      unfold Debugger.close
      split
      · rfl
      · rename_i closed
        refine SessionStore.policy_of_close? closed ?_
        rintro rfl
        exact unclosed rfl
  | @start other code =>
    refine SessionStore.policy_begin_of_ne _ ?_
    rintro rfl
    exact unstarted code rfl
  | @advance j f stage d there steps =>
    refine Touches.policy steps.touches ?_
    rintro rfl
    have different : j ≠ i := by
      rintro rfl
      exact others (.inl rfl)
    exact h j different (by rw [session?, there]; rfl) (result?_of_steps there steps)
  | expire there expires => exact congrArg (·.policy session) expires.sessions

/-! ## The transcript -/

theorem exchanged_self : exchanged s s i = [] := by
  have nothing : taken? (s.stage? i) (s.stage? i) = none := by
    cases s.stage? i with
    | none => rfl
    | some stage =>
      cases stage with
      | running | ended => rfl
      | paused site value next pause => cases pause <;> rfl
  rw [exchanged, nothing, List.drop_length]
  rfl

theorem transcript_of_idle (same : s.after schedule (n + 1) = s.after schedule n) :
    s.transcript schedule i (n + 1) = s.transcript schedule i n := by
  rw [transcript, same]
  split
  · split
    · rw [exchanged_self, List.append_nil]
    · rw [List.append_nil]
  · rw [List.append_nil]

theorem transcript_of_others (others : schedule n ≠ .advance i) :
    s.transcript schedule i (n + 1) = s.transcript schedule i n := by
  rw [transcript]
  split
  · rename_i j scheduled
    have different : j ≠ i := by
      rintro rfl
      exact others scheduled
    rw [if_neg different, List.append_nil]
  · rw [List.append_nil]

theorem transcript_of_stride {stage : Stage} {exchanges : List Exchange}
    (own : schedule n = .advance i) (here : (s.after schedule n).evaluations[i]? = some e)
    (moved : s.after schedule (n + 1) = (s.after schedule n).moved i e stage d)
    (stride : Stride client e (s.after schedule n).debugger e.stage stage d exchanges) :
    s.transcript schedule i (n + 1) = s.transcript schedule i n ++ exchanges := by
  simp only [transcript, own, if_true]
  rw [exchanged, moved, stage?_moved here, if_pos rfl, stage?_eq here]
  exact congrArg (s.transcript schedule i n ++ ·) stride.noted

/-- How an evaluation stands that steps through its program: what it has
    exchanged, and whatever may follow, is what the policy selects. -/
def Course (s : Service) (schedule : Nat → Action) (i : Nat) (client : Attachment)
    (e : Evaluation) (events : List Event) (n : Nat) : Prop :=
  ∃ stage, (s.after schedule n).evaluations[i]? = some { e with stage } ∧
    (∀ later, stage.Rest client e.session
        ((s.after schedule n).debugger.sessions.policy e.session) later →
      Selects client e.session .nothing events (s.transcript schedule i n ++ later)) ∧
    ((s.after schedule n).result? i = none →
      stage.Direct client (s.after schedule n).debugger ∧
      (s.after schedule n).debugger.isTripped i = false ∧
      (s.after schedule n).OthersEnded i e.session)

variable {events : List Event}

/-- Nothing changes for an evaluation that has ended. -/
theorem Course.of_ended (course : Course s schedule i client e events n)
    (ended : (s.after schedule n).result? i ≠ none) :
    Course s schedule i client e events (n + 1) := by
  obtain ⟨stage, here, selects, -⟩ := course
  cases stage with
  | running | paused =>
    rw [result?, here] at ended
    exact absurd rfl ended
  | ended result =>
    have still := ended_act here rfl (schedule n)
    have same : s.transcript schedule i (n + 1) = s.transcript schedule i n := by
      by_cases own : schedule n = .advance i
      · rcases advance_of_act here own with idle | ⟨stage, d, steps, -⟩
        · exact transcript_of_idle idle
        · exact absurd (result?_of_steps here steps) ended
      · exact transcript_of_others own
    refine ⟨.ended result, still, fun later rest => ?_, fun runs => ?_⟩
    · rw [same]
      exact selects later rest
    · rw [result?, after, still] at runs
      cases runs

section

variable (attended : s.Attended schedule i client) (alone : s.Alone schedule i e.session)
  (keyed : (s.after schedule n).Keyed) (ticketed : (s.after schedule n).Ticketed)
  (runs : (s.after schedule n).result? i = none)
include attended keyed ticketed runs

/-- The evaluation makes a step. -/
theorem Course.of_steps (course : Course s schedule i client e events n) {f : Evaluation}
    {stage : Stage} (own : schedule n = .advance i)
    (here : (s.after schedule n).evaluations[i]? = some f)
    (moved : s.after schedule (n + 1) = (s.after schedule n).moved i f stage d)
    (step : Steps f (s.after schedule n).debugger f.stage stage d) :
    Course s schedule i client e events (n + 1) := by
  obtain ⟨before, there, selects, steady⟩ := course
  obtain ⟨direct, free, others⟩ := steady runs
  rw [here] at there
  cases there
  have ticket : e.ticket = i := ticketed.ticket i { e with stage := before } here
  have pending : ∀ key, before.held? = some key → key ∈ (s.after schedule n).debugger.channel.keys :=
    fun key hold => keyed.pending i key ((held?_eq (stage?_eq here)).trans hold)
  obtain ⟨exchanges, stride⟩ := step.stride (attended.attached n runs) (ticket ▸ free)
    (attended.accepts n runs) pending direct
  refine ⟨stage, ?_, fun later rest => ?_, fun _ => ⟨?_, ?_, ?_⟩⟩
  · rw [moved, evaluation_moved here, if_pos rfl]
  · rw [transcript_of_stride own here moved stride, List.append_assoc]
    rw [moved] at rest
    exact selects _ (stride.rest rest)
  · rw [moved]
    exact stride.direct keyed.sound direct
  · rw [moved, Debugger.isTripped, Service.moved, stride.tripped]
    exact free
  · refine others.act fun code same => ?_
    rw [own] at same
    cases same

include alone

/-- Somebody else does something. -/
theorem Course.of_others (course : Course s schedule i client e events n)
    (steps : ∀ reply, Replies s schedule i n .command reply → Stepping reply)
    (own : schedule n ≠ .advance i) : Course s schedule i client e events (n + 1) := by
  obtain ⟨stage, here, selects, steady⟩ := course
  obtain ⟨direct, free, others⟩ := steady runs
  have notOwn : ¬ Moves i (schedule n) := fun moves => moves.elim own (attended.unhurried n)
  have session : (s.after schedule n).session? i = some e.session := by rw [session?, here]; rfl
  rcases turn keyed (attended.unhurried n) here with ⟨same, -⟩ | ⟨still, replies⟩
  · exact absurd same own
  refine ⟨stage, still, fun later rest => ?_, fun _ => ⟨?_, ?_, ?_⟩⟩
  · rw [transcript_of_others own]
    rw [after, policy_act others notOwn (fun code => alone.unstarted n code runs)
      (alone.unclosed n runs) fun policy => alone.unset n policy runs] at rest
    exact selects later rest
  · refine direct.of_others fun ask key asked => ?_
    rcases replies ask key asked with same | ⟨reply, replied, -, counts⟩
    · exact .inl same
    · refine .inr ⟨reply, replied, ?_⟩
      rintro rfl
      exact steps reply counts
  · exact isTripped_act ticketed session notOwn (alone.unclosed n runs) free
  · exact others.act fun code => alone.unstarted n code runs

end

theorem course_after (keyed : s.Keyed) (ticketed : s.Ticketed)
    (attended : s.Attended schedule i client) (alone : s.Alone schedule i e.session)
    (steps : ∀ n reply, Replies s schedule i n .command reply → Stepping reply)
    (course : Course s schedule i client e events 0) (n : Nat) :
    Course s schedule i client e events n := by
  induction n with
  | zero => exact course
  | succ n ih =>
    have keyedN := keyed.after schedule n
    have ticketedN := ticketed.after schedule n
    by_cases runs : (s.after schedule n).result? i = none
    · by_cases own : schedule n = .advance i
      · obtain ⟨stage, here, -⟩ := id ih
        rcases advance_of_act here own with same | ⟨stage', d, step, moved⟩
        · have idle : s.after schedule (n + 1) = s.after schedule n := same
          rw [Course, idle, transcript_of_idle idle]
          exact ih
        · exact ih.of_steps attended keyedN ticketedN runs own here moved step
      · exact ih.of_others attended alone keyedN ticketedN runs (steps n) own
    · exact ih.of_ended runs

/-! ## Stepping -/

/-- An evaluation begins with its program before it, and nothing exchanged. -/
theorem course_start (reachable : s.Reachable) (session code : String)
    (others : (s.act (.start session code)).OthersEnded s.evaluations.length session) :
    Course (s.act (.start session code)) schedule s.evaluations.length client
      ⟨s.debugger.tickets, session, .running (Debugger.runOf code)⟩
      (Debugger.runOf code).trace 0 := by
  refine ⟨_, start_evaluation s session code, fun later rest => ?_, fun _ => ⟨trivial, ?_, others⟩⟩
  · have fresh : (s.act (.start session code)).debugger.sessions.policy session = .nothing :=
      SessionStore.policy_begin_self _
    rw [after, fresh] at rest
    exact rest
  · have untripped : s.evaluations.length ∉ s.debugger.tripped := fun mem =>
      Nat.lt_irrefl _ (reachable.ticketed.tripped _ mem)
    rw [Debugger.isTripped, List.contains_eq_mem]
    exact decide_eq_false untripped

/-- Nothing but commands is asked for. -/
theorem Course.ask_eq_command (course : Course s schedule i client e events n) {ask : Ask}
    {key : Key} (isOpen : (s.after schedule n).open? i = some (ask, key)) : ask = .command := by
  obtain ⟨stage, here, -, steady⟩ := course
  obtain ⟨direct, -, -⟩ := steady (result?_of_open? isOpen)
  obtain ⟨asked, -⟩ := Option.filter_eq_some_iff.1 isOpen
  rw [ask?_eq (stage?_eq here)] at asked
  cases stage with
  | running | ended => cases asked
  | paused site value next pause =>
    cases pause with
    | arrived | admitted | unskipped | unattached | asking | refused | answered => cases asked
    | sending | awaiting =>
      cases asked
      exact direct.1.2

theorem trace_runOf (code : String) : (Debugger.runOf code).trace =
    (Plan.pass.evaluate code ⟨[], 0⟩ (.start false)).2.events.reverse :=
  (Run.trace_bind_done _ Prod.fst).trans (events_pass code ⟨[], 0⟩).symm

/-- The prompts of an evaluation through which an attached client steps are
    the breakpoints that the policy selects from those the program comes to,
    and the evaluation ends. -/
theorem selects_of_stepping (reachable : s.Reachable) (session code : String)
    (attended : Attended (s.act (.start session code)) schedule s.evaluations.length client)
    (alone : Alone (s.act (.start session code)) schedule s.evaluations.length session)
    (steps : ∀ n reply, Replies (s.act (.start session code)) schedule s.evaluations.length n
      .command reply → Stepping reply) :
    ∃ n, ∀ m, n ≤ m →
      ((s.act (.start session code)).after schedule m).result? s.evaluations.length ≠ none ∧
      Selects client session .nothing
        (Plan.pass.evaluate code ⟨[], 0⟩ (.start false)).2.events.reverse
        ((s.act (.start session code)).transcript schedule s.evaluations.length m) := by
  have keyed := reachable.keyed.act (.start session code)
  have ticketed := reachable.ticketed.act (.start session code)
  have course := course_after keyed ticketed attended alone steps
    (course_start reachable session code alone.others)
  rw [← trace_runOf]
  -- on its course the evaluation is all that it takes to end
  have untripped : ∀ n,
      ((s.act (.start session code)).after schedule n).result? s.evaluations.length = none →
      ((s.act (.start session code)).after schedule n).debugger.isTripped s.evaluations.length =
        false := by
    intro n runs
    obtain ⟨_, -, -, steady⟩ := course n
    exact (steady runs).2.1
  have friendly : ∀ n ask reply,
      Replies (s.act (.start session code)) schedule s.evaluations.length n ask reply →
      Friendly ask reply := by
    intro n ask reply counts
    obtain ⟨key, text, isOpen, -⟩ := id counts
    obtain rfl := (course n).ask_eq_command isOpen
    obtain ⟨c, going, rfl⟩ := steps n reply counts
    exact .inl going
  have decided : Decided (s.act (.start session code)) schedule s.evaluations.length := by
    refine fun n => .inr ⟨n, Nat.le_refl n, fun k _ shows => ?_⟩
    obtain ⟨c, going, same⟩ := steps k _ shows
    cases same
    cases going
  obtain ⟨n, ended⟩ := exists_ended keyed ticketed attended untripped friendly
    (start_evaluation s session code) (untouched_runOf code) decided
  refine ⟨n, fun m le => ?_⟩
  have still := ended_after ended rfl le
  refine ⟨fun runs => ?_, ?_⟩
  · have outcome := outcome?_of_ended still rfl
    rw [outcome?, runs] at outcome
    cases outcome
  · obtain ⟨stage, here, selects, -⟩ := course m
    rw [still] at here
    cases here
    -- nothing follows an evaluation that has ended
    exact List.append_nil (transcript _ _ _ m) ▸ selects [] rfl

/-! ### A breakpoint that is stepped over -/

theorem alone_steppingOnce : Alone started steppingOnce 0 "main" := by
  constructor
  case others =>
    intro j different own
    have lt : j < 1 := lt_of_session? own
    exact absurd (Nat.lt_one_iff.1 lt) different
  case unstarted | unclosed | unset =>
    intros
    rw [steppingOnce]
    split <;> exact fun same => by cases same

theorem selects_of_steppingOnce :
    ∃ n, ∀ m, n ≤ m →
      (started.after steppingOnce m).result? 0 ≠ none ∧
      Selects ⟨1, 10⟩ "main" .nothing
        (Plan.pass.evaluate "#break 1" ⟨[], 0⟩ (.start false)).2.events.reverse
        (started.transcript steppingOnce 0 m) := by
  refine selects_of_stepping ⟨.default, _, rfl⟩ "main" "#break 1"
    steppedBy_steppingOnce.toAttended alone_steppingOnce fun n reply counts => ?_
  obtain ⟨-, -, rfl⟩ := steppingOnce_replies counts
  exact ⟨.next, rfl, rfl⟩

end Service

end Stepper.Debug
