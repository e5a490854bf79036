/-
  Prompts for a client that has been replaced.

  An evaluation takes the client from the slot when it comes to a breakpoint
  and goes on asking the same one until the breakpoint is over.  So a client
  that is replaced while evaluations stand at breakpoints may be prompted
  again: exactly when one of them `MayAsk` it (`prompted_again_iff`).
-/
import Stepper.Proofs.Service.Replying

namespace Stepper.Debug

open Stepper.Eval Stepper.Data

/-! ## Prompts -/

/-- Whether a message is a prompt for the client. -/
def Attachment.prompted (a : Attachment) (m : Delivery) : Bool :=
  m.recipient == a.connection &&
    match Table.find? "id" m.message, Table.find? "status" m.message with
    | some (.number (.natural id)), some (.array [.string status]) =>
      id == a.request && status == "awaiting-input"
    | _, _ => false

theorem Attachment.find?_id_message (a : Attachment) (status : List String) (body : Json.Object) :
    Table.find? "id" (a.message status body) = some (.nat a.request) := by
  rw [message, Table.find?_insert, if_neg (by decide), Table.find?_insert, if_pos rfl]

theorem Attachment.find?_status_message (a : Attachment) (status : List String)
    (body : Json.Object) :
    Table.find? "status" (a.message status body) = some (.strings status) := by
  rw [message, Table.find?_insert, if_pos rfl]

theorem Attachment.prompted_push (a client : Attachment) (body : Json.Object) (failed : Bool) :
    a.prompted ⟨client.connection, client.message ["awaiting-input"] body, failed⟩ = true ↔
      client = a := by
  obtain ⟨connection, request⟩ := a
  obtain ⟨connection', request'⟩ := client
  simp [prompted, find?_id_message, find?_status_message, Json.nat, Json.strings]

theorem Attachment.not_prompted_done (a client : Attachment) (body : Json.Object) (failed : Bool) :
    a.prompted ⟨client.connection, client.message ["done"] body, failed⟩ = false := by
  simp [prompted, find?_id_message, find?_status_message, Json.nat, Json.strings]

/-- The prompts for a client among all messages so far. -/
def Debugger.prompts (d : Debugger) (a : Attachment) : List Delivery :=
  d.net.offered.filter a.prompted

/-! ## Evaluations that may ask -/

/-- Whether an evaluation at a breakpoint may still prompt a client, though no
    longer attached. -/
def Pause.MayAsk (hit : Hit) (d : Debugger) (a : Attachment) : Pause → Prop
  | .asking dialog _ | .sending dialog _ _ => dialog.client = a
  | .awaiting dialog ask key =>
    dialog.client = a ∧
      match d.reply? key with
      | none => ask ≠ .inject
      | some reply => hit.Continues d ask reply
  | .answered dialog ask reply => dialog.client = a ∧ hit.Continues d ask reply
  | _ => False

/-- Whether an evaluation may still prompt a client, though no longer
    attached. -/
def Evaluation.MayAsk (e : Evaluation) (d : Debugger) (a : Attachment) : Prop :=
  match e.stage with
  | .paused site value _ pause => pause.MayAsk (e.hit site value) d a
  | _ => False

namespace Service

/-- Some continuation in which the client is not attached prompts it. -/
def Prompts (s : Service) (a : Attachment) : Prop :=
  ∃ later : List Action, (∀ n, (s.run (later.take n)).debugger.slot ≠ some a) ∧
    (s.debugger.prompts a).length < ((s.run later).debugger.prompts a).length

end Service

/-! ## Nobody asks -/

variable {e : Evaluation} {d d' : Debugger} {a : Attachment} {hit : Hit}

/-- What others do does not make an evaluation ask. -/
theorem Pause.MayAsk.of_others {p : Pause} (h : p.MayAsk hit d' a)
    (tripped : d.isTripped hit.ticket = true → d'.isTripped hit.ticket = true)
    (replies : ∀ key, p.held? = some key → d'.reply? key = d.reply? key ∨ d.reply? key = none) :
    p.MayAsk hit d a := by
  cases p with
  | arrived | admitted | unskipped | unattached | refused => exact h
  | asking | sending => exact h
  | answered => exact ⟨h.1, h.2.of_tripped tripped⟩
  | awaiting dialog ask key =>
    obtain ⟨client, may⟩ := h
    refine ⟨client, ?_⟩
    rcases replies key rfl with same | none
    · rw [same] at may
      cases replied : d.reply? key with
      | none =>
        rw [replied] at may
        exact may
      | some reply =>
        rw [replied] at may
        exact may.of_tripped tripped
    · rw [none]
      cases replied : d'.reply? key with
      | none =>
        rw [replied] at may
        exact may
      | some reply =>
        rw [replied] at may
        exact may.ne_inject

/-- A client that is not attached is prompted only by those who may ask it. -/
theorem Goes.mayAsk {p q : Pause} (goes : Goes hit d p q d')
    (detached : p = .unskipped ∨ p = .unattached → d.slot ≠ some a)
    (h : q.MayAsk hit d' a) : p.MayAsk hit d a := by
  cases goes with
  | pass | unskip | wait | refuse => cases h
  | find attached => exact absurd (attached.trans (congrArg some h)) (detached (.inl rfl))
  | found _ attached => exact absurd (attached.trans (congrArg some h)) (detached (.inr rfl))
  | ask => exact h
  | send => exact h.1
  | take replied => exact ⟨h.1, by rw [replied]; exact h.2⟩
  | inject => exact ⟨h, .inl rfl⟩
  | eval => exact ⟨h, .inr rfl⟩
  | «show» uncancelled => exact ⟨h, uncancelled⟩

theorem Goes.prompts {p q : Pause} (goes : Goes hit d p q d') (calm : ¬ p.MayAsk hit d a) :
    d'.prompts a = d.prompts a := by
  cases goes with
  | pass | unskip | wait | find | found | ask | take | inject | eval | «show» => rfl
  | send | refuse =>
    rw [Debugger.prompts, Debugger.offer, Network.offer, List.filter_append]
    rw [List.filter_cons_of_neg, List.filter_nil, List.append_nil, Debugger.prompts]
    rw [Attachment.prompted_push]
    exact calm

theorem Steps.mayAsk {stage : Stage} (steps : Steps e d e.stage stage d')
    (detached : d.slot ≠ some a) (h : Evaluation.MayAsk { e with stage } d' a) : e.MayAsk d a := by
  obtain ⟨ticket, session, before⟩ := e
  cases steps with
  | finish | poll | formStart | arrive => cases h
  | leaves => cases h
  | goes goes => exact goes.mayAsk (fun _ => detached) h

theorem Steps.prompts {stage : Stage} (steps : Steps e d e.stage stage d')
    (calm : ¬ e.MayAsk d a) : d'.prompts a = d.prompts a := by
  obtain ⟨ticket, session, before⟩ := e
  cases steps with
  | finish | poll | formStart | arrive => rfl
  | goes goes => exact goes.prompts calm
  | leaves leaves => cases leaves <;> rfl

theorem Evaluation.MayAsk.of_others (h : e.MayAsk d' a)
    (tripped : d.isTripped e.ticket = true → d'.isTripped e.ticket = true)
    (replies : ∀ key, e.stage.held? = some key →
      d'.reply? key = d.reply? key ∨ d.reply? key = none) :
    e.MayAsk d a := by
  obtain ⟨ticket, session, stage⟩ := e
  cases stage with
  | running | ended => exact h
  | paused site value next pause =>
    have may : pause.MayAsk ⟨ticket, session, site, value⟩ d' a := h
    exact may.of_others tripped replies

theorem Evaluation.MayAsk.fading (a : Attachment) : Service.Fading fun e d => e.MayAsk d a where
  running := id
  others h tripped replies := h.of_others tripped replies

namespace Service

variable {s : Service} {i : Nat}

/-- No evaluation asks the client unless it is attached again. -/
def Calm (s : Service) (a : Attachment) : Prop :=
  ∀ (i : Nat) (e : Evaluation), s.evaluations[i]? = some e → ¬ e.MayAsk s.debugger a

theorem Outside.prompts {x : Action} (out : Outside d x d') : d'.prompts a = d.prompts a := by
  cases out with
  | release | setRefusing | submit | setPolicy => rfl
  | close =>
    unfold Debugger.close
    split <;> rfl
  | attach =>
    simp only [Debugger.prompts, Debugger.attach, AttachmentSlot.attach]
    split
    · rfl
    · split
      · rw [Attachment.push, Network.offer, List.filter_append, List.filter_cons_of_neg,
          List.filter_nil, List.append_nil]
        rw [Attachment.not_prompted_done]
        decide
      · rfl

theorem Calm.act (h : s.Calm a) (keyed : s.Keyed) (detached : s.debugger.slot ≠ some a)
    (x : Action) : (s.act x).Calm a := by
  intro i f there may
  obtain ⟨e, here, -, may⟩ := (Evaluation.MayAsk.fading a).of_act keyed
    (fun _ steps => steps.mayAsk detached) there may
  exact h i e here may

theorem Calm.prompts_act (h : s.Calm a) (x : Action) :
    (s.act x).debugger.prompts a = s.debugger.prompts a := by
  refine act_induction s x fun u change => ?_
  cases change with
  | idle | start => rfl
  | outside out => exact out.prompts
  | advance here steps => exact steps.prompts (h _ _ here)
  | @expire i e stage d here expires =>
    generalize e.stage = before at expires
    cases expires
    rfl

/-- What nobody asks at first is asked by nobody later on. -/
theorem Calm.run (h : s.Calm a) (keyed : s.Keyed) (later : List Action)
    (detached : ∀ n, (s.run (later.take n)).debugger.slot ≠ some a) :
    (s.run later).debugger.prompts a = s.debugger.prompts a := by
  induction later generalizing s with
  | nil => rfl
  | cons x later ih =>
    have calm := h.act keyed (detached 0) x
    exact (ih calm (keyed.act x) fun n => detached (n + 1)).trans (h.prompts_act x)

/-! ## Somebody asks -/

theorem Touches.le_prompts {held : Option Key} (touch : Touches e held d d') (a : Attachment) :
    (d.prompts a).length ≤ (d'.prompts a).length := by
  cases touch with
  | nothing | finish | startForm | register | forget | setPolicy | trip => exact Nat.le_refl _
  | offer =>
    rw [Debugger.offer, Debugger.prompts, Debugger.prompts, Network.offer, List.filter_append,
      List.length_append]
    exact Nat.le_add_right _ _

theorem le_prompts_act (s : Service) (x : Action) (a : Attachment) :
    (s.debugger.prompts a).length ≤ ((s.act x).debugger.prompts a).length := by
  refine act_induction s x fun u change => ?_
  cases change with
  | idle => exact Nat.le_refl _
  | outside out => exact Nat.le_of_eq (congrArg List.length out.prompts).symm
  | start => exact Nat.le_refl _
  | advance here steps => exact Touches.le_prompts steps.touches a
  | @expire i e stage d here expires => exact Touches.le_prompts (expires.touches (e := e)) a

theorem le_prompts_run (s : Service) (later : List Action) (a : Attachment) :
    (s.debugger.prompts a).length ≤ ((s.run later).debugger.prompts a).length :=
  run_induction (P := fun t => (s.debugger.prompts a).length ≤ (t.debugger.prompts a).length)
    (fun t x le => Nat.le_trans le (le_prompts_act t x a)) (Nat.le_refl _) later

variable {next : Result → Run Result} {p : Pause}

/-- The evaluation is about to prompt the client. -/
def Prompting (i : Nat) (hit : Hit) (next : Result → Run Result) (a : Attachment) (t : Service) :
    Prop :=
  ∃ dialog ask key, dialog.client = a ∧ t.At i hit next (.sending dialog ask key)

section

variable {dialog : Dialog} {ask : Ask} (keyed : s.Keyed)
include keyed

theorem At.prompting_of_asking (h : s.At i hit next (.asking dialog ask))
    (client : dialog.client = a) : s.Leads i (Prompting i hit next a) := by
  refine (h.leads_to_sending keyed).mono ?_
  rintro t ⟨key, comes, -⟩
  exact ⟨dialog, ask, key, client, comes.here⟩

theorem At.prompting_of_answered {reply : Except Error Reply}
    (h : s.At i hit next (.answered dialog ask reply))
    (continues : hit.Continues s.debugger ask reply) :
    s.Leads i (Prompting i hit next dialog.client) := by
  refine (h.leads_to_asking keyed continues).trans ?_
  rintro t ⟨shown, comes⟩
  exact comes.here.prompting_of_asking comes.keyed rfl

/-- Who may ask a client can be led to prompt it. -/
theorem At.prompting_of_mayAsk (h : s.At i hit next p) (may : p.MayAsk hit s.debugger a) :
    s.Leads i (Prompting i hit next a) := by
  cases p with
  | arrived | admitted | unskipped | unattached | refused => cases may
  | asking => exact h.prompting_of_asking keyed may
  | sending dialog ask key => exact .refl ⟨dialog, ask, key, may, h⟩
  | answered =>
    obtain ⟨rfl, continues⟩ := may
    exact h.prompting_of_answered keyed continues
  | awaiting dialog ask key =>
    obtain ⟨rfl, may⟩ := may
    -- what the evaluation may ask next depends on a reply that may be there already
    cases replied : s.debugger.reply? key with
    | none =>
      rw [replied] at may
      obtain ⟨text, reply, read, continues, -⟩ := hit.exists_continues s.debugger may
      refine (h.leads_to_answered keyed replied read).trans fun t comes => ?_
      exact comes.here.prompting_of_answered comes.keyed (comes.continues continues)
    | some reply =>
      rw [replied] at may
      refine (h.leads_of_reply keyed replied).trans fun t comes => ?_
      exact comes.here.prompting_of_answered comes.keyed (comes.continues may)

end

theorem At.prompts_of_sending {dialog : Dialog} {ask : Ask} {key : Key}
    (h : s.At i hit next (.sending dialog ask key)) :
    (s.debugger.prompts dialog.client).length <
      ((s.act (.advance i)).debugger.prompts dialog.client).length := by
  rw [h.offers, Debugger.offer, Debugger.prompts, Debugger.prompts, Network.offer,
    List.filter_append, List.length_append,
    List.filter_cons_of_pos ((Attachment.prompted_push ..).2 rfl)]
  exact Nat.lt_add_of_pos_right (Nat.succ_pos _)

theorem slot_of_aids {later : List Action} (aids : ∀ x ∈ later, Aids i x) :
    (s.run later).debugger.slot = s.debugger.slot := by
  refine slot_run fun x mem => ?_
  have aid := aids x mem
  cases x with
  | advance | submit | setRefusing => rfl
  | attach | release | setPolicy | close | start | expire => cases aid

theorem prompts_of_mayAsk (keyed : s.Keyed) (here : s.evaluations[i]? = some e)
    (may : e.MayAsk s.debugger a) (detached : s.debugger.slot ≠ some a) : s.Prompts a := by
  obtain ⟨ticket, session, stage⟩ := e
  cases stage with
  | running | ended => cases may
  | paused site value next pause =>
    have standing : s.At i ⟨ticket, session, site, value⟩ next pause := here
    obtain ⟨later, aids, dialog, ask, key, rfl, there⟩ := standing.prompting_of_mayAsk keyed may
    have aids' : ∀ x ∈ later ++ [.advance i], Aids i x := by
      intro x mem
      rcases List.mem_append.1 mem with mem | mem
      · exact aids x mem
      · rw [List.mem_singleton.1 mem]
        exact rfl
    refine ⟨later ++ [.advance i], fun n => ?_, ?_⟩
    · rw [slot_of_aids fun x mem => aids' x (List.mem_of_mem_take mem)]
      exact detached
    · rw [run_append]
      exact Nat.lt_of_le_of_lt (le_prompts_run s later _) there.prompts_of_sending

/-- A client that is replaced is prompted again in some continuation exactly
    when an evaluation at a breakpoint may ask it. -/
theorem prompted_again_iff {other : Attachment} (reachable : s.Reachable)
    (attached : s.debugger.slot = some a) (ne : other ≠ a) :
    (s.act (.attach other true)).Prompts a ↔ ∃ e ∈ s.evaluations, e.MayAsk s.debugger a := by
  have keyed : (s.act (.attach other true)).Keyed := reachable.keyed.act _
  have replaced : (s.act (.attach other true)).debugger.slot = some other := by
    simp only [act, Debugger.attach, AttachmentSlot.attach, attached, if_true]
  have detached : (s.act (.attach other true)).debugger.slot ≠ some a := by
    rw [replaced]
    exact fun same => ne (Option.some_inj.1 same)
  constructor
  · rintro ⟨later, away, more⟩
    refine Classical.byContradiction fun none => ?_
    have calm : (s.act (.attach other true)).Calm a := fun i e here may =>
      none ⟨e, List.mem_of_getElem? here, may.of_others id fun _ _ => .inl rfl⟩
    rw [calm.run keyed later away] at more
    exact Nat.lt_irrefl _ more
  · rintro ⟨e, mem, may⟩
    obtain ⟨i, here⟩ := List.getElem?_of_mem mem
    exact prompts_of_mayAsk (i := i) keyed here (may.of_others id fun _ _ => .inl rfl) detached

/-- A client attaches and is prompted at a breakpoint. -/
def prompting : List Action :=
  .attach ⟨1, 10⟩ false :: .start "main" "#break 1" :: List.replicate 7 (.advance 0)

theorem prompted_again_at_breakpoint :
    ((new .default).run prompting).Reachable ∧
      ((new .default).run prompting).debugger.slot = some ⟨1, 10⟩ ∧
      (((new .default).run prompting).act (.attach ⟨2, 20⟩ true)).Prompts ⟨1, 10⟩ := by
  have reachable : ((new .default).run prompting).Reachable := ⟨.default, prompting, rfl⟩
  have attached : ((new .default).run prompting).debugger.slot = some ⟨1, 10⟩ := rfl
  refine ⟨reachable, attached, (prompted_again_iff reachable attached (by decide)).2
    ⟨_, List.mem_of_getElem? (i := 0) rfl, rfl, fun same => ?_⟩⟩
  cases same

theorem replaced_client_not_quiet :
    ¬ ∀ (s : Service) (later : List Action) (a other : Attachment), s.Reachable →
      s.debugger.slot = some a → other ≠ a →
      (∀ n, ((s.act (.attach other true)).run (later.take n)).debugger.slot ≠ some a) →
      ((s.act (.attach other true)).run later).debugger.prompts a =
        (s.act (.attach other true)).debugger.prompts a := by
  intro quiet
  have same := quiet ((new .default).run prompting)
    (.submit (.nth 1) "eval" :: List.replicate 4 (.advance 0)) ⟨1, 10⟩ ⟨2, 20⟩
    ⟨.default, prompting, rfl⟩ rfl (by decide) ?_
  · have lengths : 2 = 1 := congrArg List.length same
    omega
  · have still : ∀ x ∈ (.submit (.nth 1) "eval" :: List.replicate 4 (.advance 0) : List Action),
        changesSlot x = false := by
      decide
    intro n
    rw [slot_run fun x mem => still x (List.mem_of_mem_take mem)]
    exact fun same => by cases same

end Service

end Stepper.Debug
