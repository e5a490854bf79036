/-
  The debugger at work.

  A `Service` is the shared state together with all evaluations that were
  ever started.  An `Action` is what a client, a connection or an evaluation
  does next; what cannot be done leaves everything as it is.  `Service.run`
  plays some actions, `Service.after` follows a schedule that never ends.

  Every action is one of three things (`change_act`): it is done from outside,
  an evaluation starts, or an evaluation makes one of its `Steps`.
-/
import Stepper.Proofs.Debug.Evaluation

namespace Stepper.Debug

open Stepper.Eval

/-- The shared state and all evaluations, in the order of their start. -/
structure Service where
  debugger : Debugger
  evaluations : List Evaluation

/-- What can happen. -/
inductive Action where
  | attach (client : Attachment) (force : Bool)
  | release (connection : Nat)
  /-- A connection refuses messages from now on, or accepts them. -/
  | setRefusing (connection : Nat) (on : Bool)
  | submit (key : Key) (text : String)
  | setPolicy (session : String) (policy : SkipPolicy)
  | close (session : String)
  | start (session code : String)
  /-- The `i`-th evaluation makes its next step. -/
  | advance (i : Nat)
  /-- The time in which the `i`-th evaluation awaits a reply is over. -/
  | expire (i : Nat)

namespace Service

/-- Before anything has happened. -/
def new (settings : Settings) : Service := ⟨.new settings, []⟩

/-- The step of an evaluation, if it makes one. -/
def move? (s : Service) (i : Nat) (step? : Evaluation → Debugger → Option (Evaluation × Debugger)) :
    Option (Evaluation × Debugger) :=
  s.evaluations[i]?.bind fun e => step? e s.debugger

/-- Notes the step of an evaluation. -/
def note (s : Service) (i : Nat) : Option (Evaluation × Debugger) → Service
  | none => s
  | some (e, d) => ⟨d, s.evaluations.set i e⟩

/-- Does what happens next. -/
def act (s : Service) : Action → Service
  | .attach client force => { s with debugger := (s.debugger.attach client force).2 }
  | .release connection => { s with debugger := s.debugger.release connection }
  | .setRefusing connection on =>
    { s with debugger := s.debugger.mapNet (·.setRefusing connection on) }
  | .submit key text => { s with debugger := s.debugger.submit key text }
  | .setPolicy session policy => { s with debugger := s.debugger.setPolicy session policy }
  | .close session => { s with debugger := (s.debugger.close session).2 }
  | .start session code =>
    let (e, d) := s.debugger.start session code
    ⟨d, s.evaluations ++ [e]⟩
  | .advance i => s.note i (s.move? i Evaluation.step?)
  | .expire i => s.note i (s.move? i Evaluation.timeOut?)

/-- Does some things, one after another. -/
def run (s : Service) (actions : List Action) : Service := actions.foldl act s

/-- A service to which some actions have led. -/
def Reachable (s : Service) : Prop := ∃ settings actions, (new settings).run actions = s

/-- What a schedule has led to after so many actions. -/
def after (s : Service) (schedule : Nat → Action) : Nat → Service
  | 0 => s
  | n + 1 => (s.after schedule n).act (schedule n)

/-- The result of an evaluation that has ended. -/
def result? (s : Service) (i : Nat) : Option Result := s.evaluations[i]?.bind Evaluation.result?

/-- How an evaluation has ended. -/
def outcome? (s : Service) (i : Nat) : Option Outcome := (s.result? i).map .ofResult

/-- Whether an evaluation can make a step without anybody's help. -/
def CanAdvance (s : Service) (i : Nat) : Prop := (s.move? i Evaluation.step?).isSome

/-- The session to which an evaluation belongs. -/
def session? (s : Service) (i : Nat) : Option String := s.evaluations[i]?.map (·.session)

/-- The stage of an evaluation. -/
def stage? (s : Service) (i : Nat) : Option Stage := s.evaluations[i]?.map (·.stage)

/-- The key that an evaluation holds. -/
def held? (s : Service) (i : Nat) : Option Key := (s.stage? i).bind Stage.held?

/-- The prompt of an evaluation that a client may answer. -/
def ask? (s : Service) (i : Nat) : Option (Ask × Key) := (s.stage? i).bind Stage.ask?

/-- The prompt of an evaluation to which a reply would count. -/
def open? (s : Service) (i : Nat) : Option (Ask × Key) :=
  (s.ask? i).filter fun (_, key) => s.debugger.accepts key

/-! ## What an action does -/

/-- What is done from outside. -/
inductive Outside (d : Debugger) : Action → Debugger → Prop
  | attach {client force} : Outside d (.attach client force) (d.attach client force).2
  | release {connection} : Outside d (.release connection) (d.release connection)
  | setRefusing {connection on} :
    Outside d (.setRefusing connection on) (d.mapNet (·.setRefusing connection on))
  | submit {key text} : Outside d (.submit key text) (d.submit key text)
  | setPolicy {session policy} : Outside d (.setPolicy session policy) (d.setPolicy session policy)
  | close {session} : Outside d (.close session) (d.close session).2

/-- The shared state and the evaluations after a step of the `i`-th. -/
def moved (s : Service) (i : Nat) (e : Evaluation) (stage : Stage) (d : Debugger) : Service :=
  ⟨d, s.evaluations.set i { e with stage }⟩

/-- What an action does. -/
inductive Change (s : Service) : Action → Service → Prop
  | idle {a i} (mover : a = .advance i ∨ a = .expire i) : Change s a s
  | outside {a d} (outside : Outside s.debugger a d) : Change s a { s with debugger := d }
  | start {session code} :
    Change s (.start session code)
      ⟨(s.debugger.start session code).2, s.evaluations ++ [(s.debugger.start session code).1]⟩
  | advance {i e stage d} (here : s.evaluations[i]? = some e)
    (steps : Steps e s.debugger e.stage stage d) : Change s (.advance i) (s.moved i e stage d)
  | expire {i e stage d} (here : s.evaluations[i]? = some e)
    (expires : Expires s.debugger e.stage stage d) : Change s (.expire i) (s.moved i e stage d)

variable {s : Service} {i : Nat}

theorem change_act (s : Service) (a : Action) : Change s a (s.act a) := by
  cases a with
  | attach => exact .outside .attach
  | release => exact .outside .release
  | setRefusing => exact .outside .setRefusing
  | submit => exact .outside .submit
  | setPolicy => exact .outside .setPolicy
  | close => exact .outside .close
  | start => exact .start
  | advance i =>
    rw [act]
    cases moved : s.move? i Evaluation.step? with
    | none => exact .idle (.inl rfl)
    | some r =>
      obtain ⟨e, here, stepped⟩ := Option.bind_eq_some_iff.1 moved
      obtain ⟨steps, same⟩ := steps_of_step? stepped
      rw [note, same]
      exact .advance here steps
  | expire i =>
    rw [act]
    cases moved : s.move? i Evaluation.timeOut? with
    | none => exact .idle (.inr rfl)
    | some r =>
      obtain ⟨e, here, stepped⟩ := Option.bind_eq_some_iff.1 moved
      obtain ⟨expires, same⟩ := expires_of_timeOut? stepped
      rw [note, same]
      exact .expire here expires

/-- What holds after every change holds after every action. -/
@[elab_as_elim]
theorem act_induction {P : Service → Prop} (s : Service) (a : Action)
    (h : ∀ t, Change s a t → P t) : P (s.act a) := h _ (change_act s a)

theorem act_advance {e e' : Evaluation} {d : Debugger} (here : s.evaluations[i]? = some e)
    (stepped : e.step? s.debugger = some (e', d)) :
    s.act (.advance i) = ⟨d, s.evaluations.set i e'⟩ := by
  rw [act, move?, here, Option.bind_some, stepped, note]

/-! ## The evaluations after an action -/

theorem evaluation_moved {e : Evaluation} {stage : Stage} {d : Debugger}
    (here : s.evaluations[i]? = some e) (j : Nat) :
    (s.moved i e stage d).evaluations[j]? =
      if j = i then some { e with stage } else s.evaluations[j]? := by
  have lt : i < s.evaluations.length := (List.getElem?_eq_some_iff.1 here).1
  rw [moved, List.getElem?_set, if_pos lt]
  split
  · rename_i same
    rw [if_pos same.symm]
  · rename_i different
    rw [if_neg (Ne.symm different)]

theorem evaluation_append (es : List Evaluation) (e : Evaluation) (j : Nat) :
    (es ++ [e])[j]? = if j = es.length then some e else es[j]? := by
  rw [List.getElem?_append]
  split
  · rename_i lt
    rw [if_neg (Nat.ne_of_lt lt)]
  · rename_i ge
    split
    · rename_i same
      rw [same, Nat.sub_self]
      rfl
    · rename_i different
      rw [List.getElem?_eq_none (by rw [List.length_singleton]; omega),
        List.getElem?_eq_none (by omega)]

theorem stage?_moved {e : Evaluation} {stage : Stage} {d : Debugger}
    (here : s.evaluations[i]? = some e) (j : Nat) :
    (s.moved i e stage d).stage? j = if j = i then some stage else s.stage? j := by
  rw [stage?, evaluation_moved here]
  split <;> rfl

theorem stage?_start (session code : String) (j : Nat) :
    (s.act (.start session code)).stage? j =
      if j = s.evaluations.length then some (.running (Debugger.runOf code)) else s.stage? j := by
  rw [stage?, act, evaluation_append]
  split <;> rfl

theorem session?_moved {e : Evaluation} {stage : Stage} {d : Debugger}
    (here : s.evaluations[i]? = some e) (j : Nat) :
    (s.moved i e stage d).session? j = s.session? j := by
  rw [session?, evaluation_moved here]
  split
  · rename_i same
    rw [same, session?, here]
    rfl
  · rfl

theorem session?_start (session code : String) (j : Nat) :
    (s.act (.start session code)).session? j =
      if j = s.evaluations.length then some session else s.session? j := by
  rw [session?, act, evaluation_append]
  split <;> rfl

theorem lt_of_session? {session : String} (h : s.session? i = some session) :
    i < s.evaluations.length := by
  obtain ⟨e, here, -⟩ := Option.map_eq_some_iff.1 h
  exact (List.getElem?_eq_some_iff.1 here).1

theorem stage?_length : s.stage? s.evaluations.length = none := by
  rw [stage?, List.getElem?_eq_none (Nat.le_refl _), Option.map_none]

theorem held?_of_ask? {ask : Ask} {key : Key} (h : s.ask? i = some (ask, key)) :
    s.held? i = some key := by
  obtain ⟨stage, here, asks⟩ := Option.bind_eq_some_iff.1 h
  rw [held?, here, Option.bind_some, Stage.held?_of_ask? asks]

/-- Whether an action is a step of the `i`-th evaluation. -/
def Moves (i : Nat) (a : Action) : Prop := a = .advance i ∨ a = .expire i

theorem Moves.unique {j : Nat} {a : Action} (own : Moves i a) (other : Moves j a) : i = j := by
  rcases own with rfl | rfl <;> rcases other with same | same <;> cases same <;> rfl

theorem evaluation_act {a : Action} {e : Evaluation} (here : s.evaluations[i]? = some e)
    (others : ¬ Moves i a) : (s.act a).evaluations[i]? = some e := by
  refine act_induction s a fun u change => ?_
  cases change with
  | idle | outside => exact here
  | start =>
    have lt : i < s.evaluations.length := (List.getElem?_eq_some_iff.1 here).1
    rw [evaluation_append, if_neg (Nat.ne_of_lt lt), here]
  | @advance j f stage d there steps =>
    have different : i ≠ j := by
      rintro rfl
      exact others (.inl rfl)
    rw [evaluation_moved there, if_neg different, here]
  | @expire j f stage d there expires =>
    have different : i ≠ j := by
      rintro rfl
      exact others (.inr rfl)
    rw [evaluation_moved there, if_neg different, here]

theorem session?_of_act {session : String} (own : s.session? i = some session) (a : Action) :
    (s.act a).session? i = some session := by
  refine act_induction s a fun u change => ?_
  cases change with
  | idle | outside => exact own
  | start =>
    rw [session?, evaluation_append, if_neg (Nat.ne_of_lt (lt_of_session? own))]
    exact own
  | advance here steps => rw [session?_moved here, own]
  | expire here expires => rw [session?_moved here, own]

theorem session?_act {a : Action} {j : Nat} {session : String}
    (h : (s.act a).session? j = some session) :
    s.session? j = some session ∨ ∃ code, a = .start session code := by
  revert h
  refine act_induction s a fun u change h => ?_
  cases change with
  | idle | outside => exact .inl h
  | @start other code =>
    rw [session?, evaluation_append] at h
    split at h
    · cases h
      exact .inr ⟨code, rfl⟩
    · exact .inl h
  | advance there steps =>
    rw [session?_moved there] at h
    exact .inl h
  | expire there expires =>
    rw [session?_moved there] at h
    exact .inl h

/-! ## The steps of an evaluation -/

section

variable {e : Evaluation} {d : Debugger}

theorem result?_of_steps {stage : Stage} (here : s.evaluations[i]? = some e)
    (steps : Steps e s.debugger e.stage stage d) : s.result? i = none := by
  rw [result?, here, Option.bind_some, steps.result?]

theorem advance_of_act {a : Action} (here : s.evaluations[i]? = some e) (own : a = .advance i) :
    s.act a = s ∨ ∃ stage d, Steps e s.debugger e.stage stage d ∧ s.act a = s.moved i e stage d := by
  refine act_induction s a fun u change => ?_
  cases change with
  | idle => exact .inl rfl
  | outside out =>
    cases own
    cases out
  | start => cases own
  | @advance j f stage d there steps =>
    cases own
    rw [here] at there
    cases there
    exact .inr ⟨stage, d, steps, rfl⟩
  | expire => cases own

theorem act_of_steps {stage : Stage} (here : s.evaluations[i]? = some e)
    (steps : Steps e s.debugger e.stage stage d) : s.act (.advance i) = s.moved i e stage d :=
  act_advance here steps.step?

theorem expire_of_act {a : Action} (here : s.evaluations[i]? = some e) (own : a = .expire i) :
    s.act a = s ∨ ∃ stage d, Expires s.debugger e.stage stage d ∧ s.act a = s.moved i e stage d := by
  refine act_induction s a fun u change => ?_
  cases change with
  | idle => exact .inl rfl
  | outside out =>
    cases own
    cases out
  | start => cases own
  | advance => cases own
  | @expire j f stage d there expires =>
    cases own
    rw [here] at there
    cases there
    exact .inr ⟨stage, d, expires, rfl⟩

/-- The `i`-th evaluation is moved by its steps, and when its time is over. -/
theorem moved_of_act {a : Action} (here : s.evaluations[i]? = some e) (moves : Moves i a) :
    s.act a = s ∨ ∃ stage d, (Steps e s.debugger e.stage stage d ∨
      Expires s.debugger e.stage stage d) ∧ s.act a = s.moved i e stage d := by
  rcases moves with rfl | rfl
  · rcases advance_of_act here rfl with idle | ⟨stage, d, steps, moved⟩
    · exact .inl idle
    · exact .inr ⟨stage, d, .inl steps, moved⟩
  · rcases expire_of_act here rfl with idle | ⟨stage, d, expires, moved⟩
    · exact .inl idle
    · exact .inr ⟨stage, d, .inr expires, moved⟩

theorem ended_act {result : Result} (here : s.evaluations[i]? = some e)
    (ended : e.stage = .ended result) (a : Action) : (s.act a).evaluations[i]? = some e := by
  by_cases moves : Moves i a
  · rcases moved_of_act here moves with idle | ⟨stage, d, steps | expires, -⟩
    · rw [idle, here]
    · rw [ended] at steps
      cases steps
    · rw [ended] at expires
      cases expires
  · exact evaluation_act here moves

theorem ended_after {result : Result} {schedule : Nat → Action} {n : Nat}
    (here : (s.after schedule n).evaluations[i]? = some e) (ended : e.stage = .ended result)
    {m : Nat} (le : n ≤ m) : (s.after schedule m).evaluations[i]? = some e := by
  induction le with
  | refl => exact here
  | step le ih => exact ended_act ih ended _

end

/-! ## How a stage is reached -/

/-- How an evaluation comes to be at a stage after an action. -/
inductive Reaches (s : Service) (i : Nat) : Action → Stage → Prop
  | stays {a stage} (there : s.stage? i = some stage) : Reaches s i a stage
  | start {session code} : Reaches s i (.start session code) (.running (Debugger.runOf code))
  | advance {e stage} (here : s.evaluations[i]? = some e)
    (steps : Steps e s.debugger e.stage stage (s.act (.advance i)).debugger) :
    Reaches s i (.advance i) stage
  | expire {e stage} (here : s.evaluations[i]? = some e)
    (expires : Expires s.debugger e.stage stage (s.act (.expire i)).debugger) :
    Reaches s i (.expire i) stage

theorem reaches_of_act {a : Action} {stage : Stage} (there : (s.act a).stage? i = some stage) :
    s.Reaches i a stage := by
  have change := change_act s a
  generalize after : s.act a = u at change there
  cases change with
  | idle | outside => exact .stays there
  | start =>
    rw [stage?, evaluation_append] at there
    split at there
    · cases there
      exact .start
    · exact .stays there
  | @advance j e stage' d here steps =>
    rw [stage?_moved here] at there
    split at there
    · rename_i same
      subst same
      cases there
      refine .advance here ?_
      rw [after]
      exact steps
    · exact .stays there
  | @expire j e stage' d here expires =>
    rw [stage?_moved here] at there
    split at there
    · rename_i same
      subst same
      cases there
      refine .expire here ?_
      rw [after]
      exact expires
    · exact .stays there

/-! ## The attachment -/

/-- Whether an action may change who is attached. -/
def changesSlot : Action → Bool
  | .attach .. | .release _ => true
  | _ => false

theorem slot_of_touches {e : Evaluation} {held : Option Key} {d d' : Debugger}
    (touch : Touches e held d d') : d'.slot = d.slot := by
  cases touch <;> rfl

theorem slot_act {a : Action} (h : changesSlot a = false) :
    (s.act a).debugger.slot = s.debugger.slot := by
  refine act_induction s a fun u change => ?_
  cases change with
  | idle | start => rfl
  | advance here steps => exact slot_of_touches steps.touches
  | @expire i e stage d here expires => exact slot_of_touches (expires.touches (e := e))
  | outside out =>
    cases out with
    | attach | release => cases h
    | setRefusing | submit | setPolicy => rfl
    | close =>
      simp only [Debugger.close]
      split <;> rfl

theorem slot_run {actions : List Action} (h : ∀ a ∈ actions, changesSlot a = false) :
    (s.run actions).debugger.slot = s.debugger.slot := by
  induction actions generalizing s with
  | nil => rfl
  | cons a actions ih =>
    exact (ih fun b mem => h b (List.mem_cons_of_mem a mem)).trans
      (slot_act (h a List.mem_cons_self))

/-! ## Runs -/

theorem run_append (s : Service) (actions more : List Action) :
    s.run (actions ++ more) = (s.run actions).run more :=
  List.foldl_append

/-- What holds at first and is kept by every action holds in every run. -/
theorem run_induction {P : Service → Prop} (keeps : ∀ s a, P s → P (s.act a)) {s : Service}
    (h : P s) (actions : List Action) : P (s.run actions) := by
  induction actions generalizing s with
  | nil => exact h
  | cons a actions ih => exact ih (keeps s a h)

/-- What does not hold at first but in the end comes about with some action. -/
theorem exists_cause {P : Service → Prop} {s : Service} (fresh : ¬ P s) {actions : List Action}
    (h : P (s.run actions)) : ∃ before a after, actions = before ++ a :: after ∧
      ¬ P (s.run before) ∧ P ((s.run before).act a) := by
  induction actions generalizing s with
  | nil => exact absurd h fresh
  | cons a actions ih =>
    by_cases now : P (s.act a)
    · exact ⟨[], a, actions, rfl, fresh, now⟩
    · obtain ⟨before, b, after, rfl, still, comes⟩ := ih now h
      exact ⟨a :: before, b, after, rfl, still, comes⟩

theorem session?_of_run {session : String} (own : s.session? i = some session)
    (actions : List Action) : (s.run actions).session? i = some session :=
  run_induction (P := fun t => t.session? i = some session)
    (fun _ a own => session?_of_act own a) own actions

theorem Reachable.run (h : s.Reachable) (later : List Action) : (s.run later).Reachable := by
  obtain ⟨settings, actions, rfl⟩ := h
  exact ⟨settings, actions ++ later, run_append _ _ _⟩

theorem Reachable.act (h : s.Reachable) (a : Action) : (s.act a).Reachable := h.run [a]

theorem Reachable.induction {P : Service → Prop} (h : s.Reachable)
    (fresh : ∀ settings, P (new settings)) (keeps : ∀ s a, P s → P (s.act a)) : P s := by
  obtain ⟨settings, actions, rfl⟩ := h
  exact run_induction keeps (fresh settings) actions

/-- What every action keeps that is taken in a reachable state. -/
theorem Reachable.invariant {P : Service → Prop} (h : s.Reachable)
    (fresh : ∀ settings, P (new settings)) (keeps : ∀ s a, s.Reachable → P s → P (s.act a)) :
    P s := by
  have both : s.Reachable ∧ P s := by
    refine h.induction (P := fun s => s.Reachable ∧ P s) ?_ ?_
    · exact fun settings => ⟨⟨settings, [], rfl⟩, fresh settings⟩
    · rintro s a ⟨reachable, holds⟩
      exact ⟨reachable.act a, keeps s a reachable holds⟩
  exact both.2

theorem after_induction {P : Service → Prop} (keeps : ∀ s a, P s → P (s.act a)) {s : Service}
    (h : P s) (schedule : Nat → Action) (n : Nat) : P (s.after schedule n) := by
  induction n with
  | zero => exact h
  | succ n ih => exact keeps _ _ ih

end Service

end Stepper.Debug
