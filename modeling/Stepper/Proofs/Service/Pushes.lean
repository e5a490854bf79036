/-
  The prompts that an evaluation sends.

  Whatever an evaluation sends is a prompt for the breakpoint at which it
  stands (`offered_advance`), and it sends one exactly when it comes from
  `sending` (`pushed_of_sending`, `exists_sending_of_pushed`).
-/
import Stepper.Proofs.Service.Replying

namespace Stepper.Debug

open Stepper.Eval

/-- A prompt, and the place of the breakpoint for which it is sent. -/
structure Push where
  place : Coordinate
  message : Delivery

variable {e : Evaluation} {d d' : Debugger} {hit : Hit}

/-- Whether the evaluation sends a prompt in its next step. -/
def Stage.sends : Stage → Bool
  | .paused _ _ _ (.sending ..) => true
  | _ => false

theorem Stage.sends_iff {stage : Stage} : stage.sends = true ↔ ∃ site value next dialog ask key,
    stage = .paused site value next (.sending dialog ask key) := by
  cases stage with
  | running | ended => simp [sends]
  | paused site value next pause => cases pause <;> simp [sends]

theorem Steps.offered {stage stage' : Stage} (steps : Steps e d stage stage' d') :
    d'.net = d.net ∨ stage.sends = true := by
  cases steps with
  | finish | poll | formStart | arrive => exact .inl rfl
  | leaves leaves => exact .inl (by cases leaves <;> rfl)
  | goes goes =>
    cases goes with
    | send | refuse => exact .inr rfl
    | pass | unskip | find | wait | found | ask | take | inject | eval | «show» => exact .inl rfl

namespace Service

variable {s : Service} {i : Nat} {next : Result → Run Result}

/-- The prompts that the `i`-th evaluation sends in an action. -/
def pushed (s : Service) (i : Nat) : Action → List Push
  | .advance j =>
    if j = i then
      match s.stage? i with
      | some (.paused site _ _ _) =>
        ((s.act (.advance i)).debugger.net.offered.drop s.debugger.net.offered.length).map
          (⟨site.place, ·⟩)
      | _ => []
    else []
  | _ => []

/-- The prompts that the `i`-th evaluation sends in some actions. -/
def pushes (s : Service) (i : Nat) : List Action → List Push
  | [] => []
  | a :: later => s.pushed i a ++ (s.act a).pushes i later

theorem pushes_append (s : Service) (i : Nat) (later more : List Action) :
    s.pushes i (later ++ more) = s.pushes i later ++ (s.run later).pushes i more := by
  induction later generalizing s with
  | nil => rfl
  | cons a later ih =>
    rw [List.cons_append, pushes, pushes, ih, List.append_assoc]
    rfl

theorem pushed_of_sending {dialog : Dialog} {ask : Ask} {key : Key}
    (h : s.At i hit next (.sending dialog ask key)) :
    s.pushed i (.advance i) =
      [⟨hit.site.place, dialog.client.connection,
        dialog.client.message ["awaiting-input"] (hit.promptBody dialog ask key),
        !s.debugger.net.accepts dialog.client.connection⟩] := by
  simp only [pushed, if_true, h.stage?, h.offers, Debugger.offer, Network.offer, List.drop_left]
  rfl

theorem exists_sending_of_pushed {a : Action} {x : Push} (h : x ∈ s.pushed i a) :
    a = .advance i ∧ ∃ hit next dialog ask key, s.At i hit next (.sending dialog ask key) ∧
      x.place = hit.site.place := by
  cases a with
  | attach | release | setRefusing | submit | setPolicy | close | start | expire => cases h
  | advance j =>
    rw [pushed] at h
    split at h
    · rename_i same
      subst same
      refine ⟨rfl, ?_⟩
      split at h
      · rename_i site value next pause stage
        obtain ⟨message, offered, rfl⟩ := List.mem_map.1 h
        obtain ⟨e, here, paused⟩ := Option.map_eq_some_iff.1 stage
        obtain ⟨ticket, session, before⟩ := e
        cases paused
        have unchanged : (s.act (.advance j)).debugger.net = s.debugger.net → False := by
          intro same
          rw [same, List.drop_length] at offered
          cases offered
        rcases advance_of_act here rfl with idle | ⟨stage', d, steps, moved⟩
        · exact (unchanged (by rw [idle])).elim
        · rcases steps.offered with same | sends
          · exact (unchanged (by rw [moved]; exact same)).elim
          · obtain ⟨_, _, _, dialog, ask, key, sending⟩ := Stage.sends_iff.1 sends
            cases sending
            exact ⟨⟨ticket, session, site, value⟩, next, dialog, ask, key, here, rfl⟩
      · cases h
    · cases h

theorem pushed_eq_nil {a : Action} {stage : Stage} (there : s.stage? i = some stage)
    (silent : stage.sends = false) : s.pushed i a = [] := by
  rw [List.eq_nil_iff_forall_not_mem]
  intro x sent
  obtain ⟨-, hit, next, dialog, ask, key, sending, -⟩ := exists_sending_of_pushed sent
  rw [sending.stage?] at there
  cases there
  cases silent

/-- Nothing but prompts is sent by an evaluation. -/
theorem offered_advance (s : Service) (i : Nat) :
    (s.act (.advance i)).debugger.net.offered =
      s.debugger.net.offered ++ (s.pushed i (.advance i)).map Push.message := by
  have silent : (s.act (.advance i)).debugger.net = s.debugger.net →
      (s.act (.advance i)).debugger.net.offered =
        s.debugger.net.offered ++ (s.pushed i (.advance i)).map Push.message := by
    intro same
    have nothing : s.pushed i (.advance i) = [] := by
      simp only [pushed, if_true, same, List.drop_length, List.map_nil]
      split <;> rfl
    rw [nothing, same, List.map_nil, List.append_nil]
  cases here : s.evaluations[i]? with
  | none =>
    refine silent ?_
    rw [act, move?, here]
    rfl
  | some e =>
    rcases advance_of_act here rfl with idle | ⟨stage, d, steps, moved⟩
    · exact silent (by rw [idle])
    · rcases steps.offered with same | sends
      · exact silent (by rw [moved]; exact same)
      · obtain ⟨ticket, session, before⟩ := e
        obtain ⟨site, value, next, dialog, ask, key, rfl⟩ := Stage.sends_iff.1 sends
        have there : s.At i ⟨ticket, session, site, value⟩ next (.sending dialog ask key) := here
        rw [pushed_of_sending there, there.offers]
        rfl

end Service

end Stepper.Debug
