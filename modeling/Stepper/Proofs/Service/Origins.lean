/-
  Where the breakpoints stand at which clients are prompted.

  A `Headway` tells how many top-level forms of a program have begun, and which
  expressions have been injected into the last of them.  Whatever clients and
  other evaluations do, every prompt is for a tag that stands in the form that
  has begun last, or in the body of a function of an injected expression
  (`prompt_stands`).  The latter does happen (`injected_tag_prompts`): the
  functions that an expression makes keep their tags.
-/
import Stepper.Proofs.Eval.Provenance
import Stepper.Proofs.Service.Pushes

namespace Stepper.Debug

open Stepper.Data Stepper.Eval
open Stepper.Syntax (Form readForms)

/-- How far a program has come. -/
structure Headway where
  /-- How many top-level forms have begun. -/
  begun : Nat
  /-- The expressions injected since the last of them has begun, oldest first. -/
  injected : List Form

/-- No form has begun. -/
def Headway.start : Headway := ⟨0, []⟩

/-- The expressions injected into the last form. -/
def Headway.expressions (c : Headway) : Set Form := {form | form ∈ c.injected}

/-- How far a program has come with the next step from a stage. -/
def Headway.step (c : Headway) : Stage → Headway
  | .running (.formStart _) => ⟨c.begun + 1, []⟩
  | .paused _ _ _ (.answered _ .inject (.ok (.expression form))) =>
    { c with injected := c.injected ++ [form] }
  | _ => c

theorem Headway.expressions_append (c : Headway) (form : Form) :
    Headway.expressions { c with injected := c.injected ++ [form] } =
      insert form c.expressions := by
  ext other
  simp [expressions, or_comm]

variable {e e' : Evaluation} {d d' : Debugger} {forms : List Form} {c : Headway}

theorem Headway.step_of_step?_eq_none (h : e.step? d = none) (c : Headway) :
    c.step e.stage = c := by
  obtain ⟨ticket, session, stage⟩ := e
  cases stage with
  | ended => rfl
  | running rest =>
    cases rest with
    | formStart next => cases h
    | done | poll | hit => rfl
  | paused site value next pause =>
    cases pause with
    | answered dialog ask reply =>
      cases ask with
      | command | eval => rfl
      | inject =>
        cases reply with
        | error => rfl
        | ok reply =>
          cases reply with
          | command => rfl
          | expression => cases h
    | _ => rfl

/-- What is left of the program stays at home, given how far it has come. -/
def Stage.Plays (forms : List Form) (c : Headway) (stage : Stage) : Prop :=
  stage.rest.Plays forms c.begun c.expressions

/-- Whatever is answered at a breakpoint comes from the program, from what is
    in sight or from an injected expression. -/
theorem Leaves.plays {hit : Hit} {next : Result → Run Result} {p : Pause} {answer : Result}
    (leaves : Leaves hit d p answer d')
    (h : Stage.Plays forms c (.paused hit.site hit.value next p)) :
    Stage.Plays forms (c.step (.paused hit.site hit.value next p)) (.running (next answer)) := by
  obtain ⟨k, root, begun, here, reports, continues⟩ := h
  have passes : (next (.ok hit.value)).Plays forms c.begun c.expressions := by
    refine continues c.expressions subset_rfl (.ok hit.value) fun v same => ?_
    cases same
    exact reports.value
  have fails : ∀ error, (next (.error error)).Plays forms c.begun c.expressions := fun error =>
    continues c.expressions subset_rfl (.error error) fun v same => by cases same
  cases leaves with
  | skip | next | proceed | out => exact passes
  | stopped | alone | unattached | refused | lost | awaiting | noCommand | quit | eval =>
    exact fails _
  | @failed dialog ask error => cases ask <;> exact fails _
  | @noExpression dialog ask command kind =>
    cases ask with
    | command => exact absurd rfl kind
    | inject | eval => exact fails _
  | @inject dialog form =>
    rw [Stage.Plays, Headway.step, Headway.expressions_append]
    exact continues _ (Set.subset_insert _ _) _ fun v evaluates =>
      holds_evaluateForm reports.sight evaluates

theorem Steps.plays {stage stage' : Stage} (steps : Steps e d stage stage' d')
    (h : stage.Plays forms c) : stage'.Plays forms (c.step stage) := by
  cases steps with
  | finish | arrive => exact h
  | poll => exact h _
  | formStart =>
    have none : Headway.expressions ⟨c.begun + 1, []⟩ = ∅ := by simp [Headway.expressions]
    rw [Stage.Plays, Headway.step, none]
    exact h
  | leaves leaves => exact leaves.plays h
  | @goes site value next p q d' goes =>
    cases goes with
    | take | inject | eval | «show» | pass | unskip | find | wait | found | ask | send | refuse =>
      exact h

theorem Expires.plays {stage stage' : Stage} (expires : Expires d stage stage' d')
    (h : stage.Plays forms c) : stage'.Plays forms c := by
  cases expires with
  | awaiting limited unanswered =>
    obtain ⟨k, root, begun, here, reports, continues⟩ := h
    exact continues c.expressions subset_rfl (.error _) fun v same => by cases same

/-- The coordinate that a prompt shows. -/
theorem find?_coordinate_promptBody (client : Attachment) (status : List String) (hit : Hit)
    (dialog : Dialog) (ask : Ask) (key : Key) :
    Table.find? "coordinate" (client.message status (hit.promptBody dialog ask key)) =
      some hit.placeJson := by
  obtain ⟨client', shown⟩ := dialog
  rw [Attachment.message, Table.find?_insert, if_neg (by decide), Table.find?_insert,
    if_neg (by decide), Hit.promptBody, Channel.promptBody, Hit.display]
  cases shown <;> rfl

namespace Service

variable {s : Service} {i : Nat}

/-- How far the program of the `i`-th evaluation has come after an action. -/
def headwayOf (s : Service) (i : Nat) (c : Headway) : Action → Headway
  | .advance j =>
    if j = i then
      match s.stage? i with
      | some stage => c.step stage
      | none => c
    else c
  | _ => c

/-- How far the program of the `i`-th evaluation has come after some actions. -/
def headwayThrough (s : Service) (i : Nat) (c : Headway) : List Action → Headway
  | [] => c
  | a :: later => (s.act a).headwayThrough i (s.headwayOf i c a) later

/-- The program of the `i`-th evaluation stays at home. -/
def PlaysAt (s : Service) (i : Nat) (forms : List Form) (c : Headway) : Prop :=
  ∃ stage, s.stage? i = some stage ∧ stage.Plays forms c

theorem PlaysAt.act (h : s.PlaysAt i forms c) (a : Action) :
    (s.act a).PlaysAt i forms (s.headwayOf i c a) := by
  obtain ⟨stage, there, plays⟩ := h
  obtain ⟨e, here, rfl⟩ := Option.map_eq_some_iff.1 there
  have stays : (s.act a).evaluations[i]? = some e → s.headwayOf i c a = c →
      (s.act a).PlaysAt i forms (s.headwayOf i c a) := by
    intro same idle
    refine ⟨e.stage, ?_, ?_⟩
    · rw [stage?, same]
      rfl
    · rw [idle]
      exact plays
  have moves : ∀ {stage d}, s.act a = s.moved i e stage d →
      stage.Plays forms (s.headwayOf i c a) → (s.act a).PlaysAt i forms (s.headwayOf i c a) := by
    intro stage d moved plays'
    refine ⟨stage, ?_, plays'⟩
    rw [moved, stage?_moved here, if_pos rfl]
  by_cases own : a = .advance i
  · subst own
    have headway : s.headwayOf i c (.advance i) = c.step e.stage := by
      rw [headwayOf, if_pos rfl, there]
    cases stepped : e.step? s.debugger with
    | none =>
      have idle : s.act (.advance i) = s := by
        rw [Service.act, move?, here, Option.bind_some, stepped, note]
      exact stays (by rw [idle, here]) (headway.trans (c.step_of_step?_eq_none stepped))
    | some r =>
      obtain ⟨steps, -⟩ := steps_of_step? stepped
      refine moves (act_of_steps here steps) ?_
      rw [headway]
      exact steps.plays plays
  · have idle : s.headwayOf i c a = c := by
      cases a with
      | advance j =>
        rw [headwayOf, if_neg]
        rintro rfl
        exact own rfl
      | _ => rfl
    by_cases expiry : a = .expire i
    · subst expiry
      rcases expire_of_act here rfl with same | ⟨stage, d, expires, moved⟩
      · exact stays (by rw [same, here]) idle
      · refine moves moved ?_
        rw [idle]
        exact expires.plays plays
    · exact stays (evaluation_act here fun own' => own'.elim own expiry) idle

theorem PlaysAt.run (h : s.PlaysAt i forms c) (later : List Action) :
    (s.run later).PlaysAt i forms (s.headwayThrough i c later) := by
  induction later generalizing s c with
  | nil => exact h
  | cons a later ih => exact ih (h.act a)

theorem runOf_of_unreadable {code : String} {e : Syntax.ReadError}
    (read : readForms code = .error e) :
    Debugger.runOf code = .done (.error (.unreadable e)) := by
  rw [Debugger.runOf, evalSource, read]
  rfl

/-- An evaluation that starts has its program before it. -/
theorem playsAt_start (s : Service) (session code : String) :
    ∃ forms, (readForms code = .ok forms ∨ forms = []) ∧
      (s.act (.start session code)).PlaysAt s.evaluations.length forms .start := by
  have there : (s.act (.start session code)).stage? s.evaluations.length =
      some (.running (Debugger.runOf code)) := by
    rw [stage?_start, if_pos rfl]
  cases read : readForms code with
  | error e =>
    refine ⟨[], .inr rfl, _, there, ?_⟩
    rw [runOf_of_unreadable read]
    trivial
  | ok forms =>
    refine ⟨forms, .inl rfl, _, there, ?_⟩
    have none : Headway.start.expressions = ∅ := by simp [Headway.expressions, Headway.start]
    rw [Stage.Plays, none]
    exact (plays_evalSource read []).map _

/-- How far a program has come that was started and followed by some actions. -/
def headwaySince (s : Service) (session code : String) (later : List Action) : Headway :=
  (s.act (.start session code)).headwayThrough s.evaluations.length .start later

/-- Every prompt of an evaluation is for a tag at the coordinate that it shows,
    which leads there from the top-level form that has begun last, or from an
    expression that has been injected since, through the body of a function. -/
theorem prompt_stands {s : Service} {session code : String} {later : List Action} {a : Action}
    {x : Push}
    (sent : x ∈ ((s.act (.start session code)).run later).pushed s.evaluations.length a) :
    ∃ forms k root inner, readForms code = .ok forms ∧ forms[k]? = some root ∧
      (s.headwaySince session code later).begun = k + 1 ∧
      Table.find? "coordinate" x.message.message =
        some (.array (x.place.path.map fun step => .nat step.toNat)) ∧
      Home root (s.headwaySince session code later).expressions (.tagged inner) x.place := by
  obtain ⟨forms, read, starts⟩ := playsAt_start s session code
  obtain ⟨stage, there, plays⟩ := starts.run later
  obtain ⟨rfl, hit, next, dialog, ask, key, sending, place⟩ := exists_sending_of_pushed sent
  rw [sending.stage?] at there
  cases there
  obtain ⟨k, root, begun, here, reports, -⟩ := plays
  obtain ⟨inner, home⟩ := reports.tag
  rw [pushed_of_sending sending, List.mem_singleton] at sent
  subst sent
  rcases read with read | rfl
  · exact ⟨forms, k, root, inner, read, here, begun, find?_coordinate_promptBody .., home⟩
  · cases here

/-- The place for which the `i`-th evaluation is about to send a prompt. -/
def sends? (s : Service) (i : Nat) : Option Coordinate :=
  match s.stage? i with
  | some (.paused site _ _ (.sending ..)) => some site.place
  | _ => none

theorem exists_pushed_of_sends? {place : Coordinate} (h : s.sends? i = some place) :
    ∃ x ∈ s.pushed i (.advance i), x.place = place := by
  unfold sends? at h
  split at h
  · rename_i site value next dialog ask key there
    cases h
    obtain ⟨⟨ticket, session, stage⟩, here, rfl⟩ := Option.map_eq_some_iff.1 there
    have sending : s.At i ⟨ticket, session, site, value⟩ next (.sending dialog ask key) := here
    rw [pushed_of_sending sending]
    exact ⟨_, List.mem_singleton_self _, rfl⟩
  · cases h

/-- A program that calls a function for which a breakpoint stands. -/
def calling : String := "(let [f #break nil] (f))"

/-- A service to which a client is attached. -/
def attended : Service := (new .default).act (.attach ⟨1, 10⟩ false)

/-- The client injects a function whose body has a tag. -/
def injecting : List Action :=
  List.replicate 8 (.advance 0) ++ .submit (.nth 1) "inject" ::
    (List.replicate 4 (.advance 0) ++ .submit (.nth 2) "(fn [] #break 1)" ::
      List.replicate 8 (.advance 0))

theorem exists_pushed_injecting :
    ∃ x ∈ ((attended.act (.start "main" calling)).run injecting).pushed 0 (.advance 0),
      x.place = ⟨[2]⟩ :=
  exists_pushed_of_sends? (by decide +kernel)

theorem prompt_stands_injecting :
    ∃ x ∈ ((attended.act (.start "main" calling)).run injecting).pushed 0 (.advance 0),
      x.place = ⟨[2]⟩ ∧ ∃ forms k root inner, readForms calling = .ok forms ∧
        forms[k]? = some root ∧ (attended.headwaySince "main" calling injecting).begun = k + 1 ∧
        Table.find? "coordinate" x.message.message =
          some (.array (x.place.path.map fun step => .nat step.toNat)) ∧
        Home root (attended.headwaySince "main" calling injecting).expressions (.tagged inner)
          x.place := by
  obtain ⟨x, sent, place⟩ := exists_pushed_injecting
  exact ⟨x, sent, place, prompt_stands (s := attended) sent⟩

/-- A client is prompted where the program has no tag. -/
theorem injected_tag_prompts :
    ¬ ∀ (s : Service) (session code : String) (later : List Action) (a : Action) (x : Push),
      x ∈ ((s.act (.start session code)).run later).pushed s.evaluations.length a →
      ∃ forms root inner, readForms code = .ok forms ∧ root ∈ forms ∧
        StandsIn root (.tagged inner) x.place := by
  intro stands
  obtain ⟨x, sent, place⟩ := exists_pushed_injecting
  obtain ⟨forms, root, inner, read, mem, leads⟩ :=
    stands attended "main" calling injecting (.advance 0) x sent
  have program : readForms calling = .ok [.list [.symbol "let",
      .vector [.symbol "f", .tagged .nil], .list [.symbol "f"]]] := rfl
  have narrow : root.Narrow (UInt32.size - 1) :=
    Syntax.narrow_of_readForms read (by decide) (by decide) mem
  obtain ⟨p, there, strips⟩ := leads.at? narrow
  rw [program] at read
  cases read
  rw [List.mem_singleton.1 mem, place] at there
  cases there
  cases strips

end Service

end Stepper.Debug
