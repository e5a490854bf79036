/-
  An evaluation that is attended to ends.

  Every step of an evaluation brings it `Nearer` to its end: it goes on in its
  program, or at the breakpoint where it stands fewer moves are left
  (`toGo`).  Only the command `eval` adds moves.  So the evaluation ends if
  it is given its turns and its answers, and no breakpoint is answered by
  `eval` for ever (`ends`).
-/
import Stepper.Proofs.Service.Attended

namespace Stepper.Debug

open Stepper.Eval

/-! ## How far it is to the end -/

/-- The moves that a prompt adds: after an expression has been shown, a
    command is asked for again. -/
def Ask.detour : Ask → Nat
  | .command => 0
  | .inject | .eval => 6

/-- The moves that a reply adds. -/
def detour : Ask → Except Error Reply → Nat
  | .command, .ok (.command .eval) => 12
  | .command, _ => 0
  | .inject, _ | .eval, _ => 6

/-- How many moves there are at most until the breakpoint is left, if the next
    command lets the evaluation go on. -/
def Pause.toGo (d : Debugger) : Pause → Nat
  | .arrived => 10
  | .admitted => 9
  | .unskipped => 8
  | .unattached => 7
  | .asking _ ask => 6 + ask.detour
  | .sending _ ask key => (d.reply? key).elim (5 + ask.detour) (3 + detour ask ·)
  | .refused .. => 0
  | .awaiting _ ask key => (d.reply? key).elim (4 + ask.detour) (2 + detour ask ·)
  | .answered _ ask reply => 1 + detour ask reply

/-- How many moves there are until the program goes on. -/
def Stage.toGo (d : Debugger) : Stage → Nat
  | .running _ => 11
  | .paused _ _ _ pause => pause.toGo d
  | .ended _ => 0

/-- The evaluation has come nearer to its end. -/
def Nearer (stage' : Stage) (d' : Debugger) (stage : Stage) (d : Debugger) : Prop :=
  Prod.Lex Run.Follows (· < ·) (stage'.rest, stage'.toGo d') (stage.rest, stage.toGo d)

variable {client : Attachment} {d d' : Debugger} {e : Evaluation} {hit : Hit} {plain : Result}

theorem Goes.toGo_lt {p q : Pause} (goes : Goes hit d p q d') (sound : d.channel.Sound)
    (h : p.OnTrack client d) : q.toGo d' < p.toGo d := by
  cases goes with
  | pass | unskip | find | wait | found => simp only [Pause.toGo]; decide
  | @ask dialog ask =>
    rw [Pause.toGo, Pause.toGo, Debugger.reply?_register sound, Option.elim_none]
    omega
  | @send dialog ask key =>
    have same : (d.offer dialog.client (hit.promptBody dialog ask key)).reply? key =
        d.reply? key := rfl
    rw [Pause.toGo, Pause.toGo, same]
    cases d.reply? key with
    | none =>
      simp only [Option.elim_none]
      omega
    | some reply =>
      simp only [Option.elim_some]
      omega
  | @refuse dialog ask key =>
    rw [Pause.toGo, Pause.toGo]
    cases d.reply? key with
    | none =>
      simp only [Option.elim_none]
      omega
    | some reply =>
      simp only [Option.elim_some]
      omega
  | take replied =>
    rw [Pause.toGo, Pause.toGo, replied, Option.elim_some]
    omega
  | inject =>
    obtain ⟨-, steps | same⟩ := h
    · cases steps
    · cases same
  | eval | «show» => simp only [Pause.toGo, detour, Ask.detour]; decide

theorem Steps.nearer {stage : Stage} (steps : Steps e d e.stage stage d')
    (sound : d.channel.Sound) (h : e.stage.OnTrack client d plain) :
    Nearer stage d' e.stage d := by
  obtain ⟨ticket, session, before⟩ := e
  cases steps with
  | finish =>
    refine Prod.Lex.right _ ?_
    change 0 < 11
    decide
  | poll => exact Prod.Lex.left _ _ (.poll _)
  | formStart => exact Prod.Lex.left _ _ .formStart
  | arrive =>
    refine Prod.Lex.right _ ?_
    change 10 < 11
    decide
  | goes goes => exact Prod.Lex.right _ (goes.toGo_lt sound h.2)
  | leaves => exact Prod.Lex.left _ _ (.hit _)

/-- Only a breakpoint where the client has a prompt halts an evaluation that
    is on track. -/
theorem step?_isSome_or_open {stage : Stage} (h : stage.OnTrack client d plain)
    (attached : d.slot = some client) (runs : ∀ result, stage ≠ .ended result) :
    (Evaluation.step? { e with stage } d).isSome = true ∨
      ∃ ask key, stage.ask? = some (ask, key) ∧ d.accepts key = true := by
  cases stage with
  | running rest => cases rest <;> exact .inl rfl
  | ended result => exact absurd rfl (runs result)
  | paused site value next pause =>
    simp only [Evaluation.step?]
    cases moved : pause.move (Evaluation.hit e site value) d with
    | goTo | resume => exact .inl rfl
    | blocked =>
      refine .inr ?_
      cases stands_of_move moved with
      | unattached free detached =>
        rw [attached] at detached
        cases detached
      | awaiting free unanswered => exact ⟨_, _, rfl, unanswered⟩

theorem Stage.toGo_congr {stage : Stage}
    (h : ∀ ask key, stage.ask? = some (ask, key) → d'.reply? key = d.reply? key) :
    stage.toGo d' = stage.toGo d := by
  cases stage with
  | running | ended => rfl
  | paused site value next pause =>
    cases pause with
    | arrived | admitted | unskipped | unattached | asking | refused | answered => rfl
    | sending dialog ask key | awaiting dialog ask key =>
      rw [toGo, toGo, Pause.toGo, Pause.toGo, h ask key rfl]

theorem detour_le (ask : Ask) (reply : Except Error Reply) :
    detour ask reply ≤ ask.detour ∨ (ask = .command ∧ reply = .ok (.command .eval)) := by
  cases ask with
  | inject | eval => exact .inl (Nat.le_refl 6)
  | command =>
    rcases reply with error | command | form
    · exact .inl (Nat.le_refl 0)
    · cases command with
      | eval => exact .inr ⟨rfl, rfl⟩
      | next | proceed | out | inject | quit => exact .inl (Nat.le_refl 0)
    · exact .inl (Nat.le_refl 0)

/-- How far it is from a prompt: a reply, once it is there, saves two moves, and
    the detours that it excludes. -/
theorem Stage.toGo_of_ask? {stage : Stage} {ask : Ask} {key : Key}
    (asked : stage.ask? = some (ask, key)) :
    ∃ base, 2 ≤ base ∧ base ≤ 3 ∧ ∀ d : Debugger,
      stage.toGo d = (d.reply? key).elim (base + 2 + ask.detour) (base + detour ask ·) := by
  cases stage with
  | running | ended => cases asked
  | paused site value next pause =>
    cases pause with
    | arrived | admitted | unskipped | unattached | asking | refused | answered => cases asked
    | sending =>
      cases asked
      exact ⟨3, by decide, by decide, fun _ => rfl⟩
    | awaiting =>
      cases asked
      exact ⟨2, by decide, by decide, fun _ => rfl⟩

/-- A reply that is put down makes the way shorter, unless it is the command
    `eval`. -/
theorem Stage.toGo_of_reply {stage : Stage} {ask : Ask} {key : Key} {reply : Except Error Reply}
    (asked : stage.ask? = some (ask, key)) (unanswered : d.reply? key = none)
    (replied : d'.reply? key = some reply) :
    stage.toGo d' < stage.toGo d ∨ (ask = .command ∧ reply = .ok (.command .eval)) := by
  refine (detour_le ask reply).imp_left fun shorter => ?_
  obtain ⟨base, -, -, toGo⟩ := toGo_of_ask? asked
  rw [toGo, toGo, unanswered, replied, Option.elim_none, Option.elim_some]
  omega

theorem Stage.le_toGo_of_open {stage : Stage} {ask : Ask} {key : Key}
    (asked : stage.ask? = some (ask, key)) (unanswered : d.reply? key = none) :
    4 ≤ stage.toGo d := by
  obtain ⟨base, le, -, toGo⟩ := toGo_of_ask? asked
  rw [toGo, unanswered, Option.elim_none]
  omega

/-- After a command with which the evaluation goes on there is nothing more to
    ask for. -/
theorem Stage.toGo_le_of_steps {stage : Stage} {key : Key} {c : Command}
    (asked : stage.ask? = some (.command, key))
    (replied : d.reply? key = some (.ok (.command c))) (steps : c.steps = true) :
    stage.toGo d ≤ 3 := by
  have direct : detour .command (.ok (.command c)) = 0 := by
    cases c with
    | eval => cases steps
    | next | proceed | out | inject | quit => rfl
  obtain ⟨base, -, le, toGo⟩ := toGo_of_ask? asked
  rw [toGo, replied, Option.elim_some, direct]
  exact le

theorem Run.follows_irrefl (r : Run Result) : ¬ Run.Follows r r :=
  Run.follows_wf.induction (C := fun r => ¬ Run.Follows r r) r fun r ih h => ih r h h

theorem Nearer.ne {stage stage' : Stage} (h : Nearer stage' d' stage d) :
    stage'.rest ≠ stage.rest ∨ stage'.toGo d' < stage.toGo d := by
  rcases Prod.lex_def.1 h with follows | ⟨-, less⟩
  · refine .inl fun same => ?_
    rw [same] at follows
    exact Run.follows_irrefl _ follows
  · exact .inr less

/-! ## Along a schedule -/

namespace Service

variable {s : Service} {schedule : Nat → Action} {i n : Nat}

/-- The `n`-th action means nothing to the `i`-th evaluation. -/
def Idle (s : Service) (schedule : Nat → Action) (i n : Nat) : Prop :=
  ∀ e : Evaluation, (s.after schedule n).evaluations[i]? = some e →
    (s.after schedule (n + 1)).evaluations[i]? = some e ∧
      ∀ ask key, e.stage.ask? = some (ask, key) →
        (s.after schedule (n + 1)).debugger.reply? key =
          (s.after schedule n).debugger.reply? key

theorem open?_eq_some {t : Service} {ask : Ask} {key : Key} (here : t.evaluations[i]? = some e)
    (h : t.open? i = some (ask, key)) :
    e.stage.ask? = some (ask, key) ∧ ∃ p, t.debugger.channel.find? key = some p ∧ p.reply = none := by
  obtain ⟨asked, accepted⟩ := Option.filter_eq_some_iff.1 h
  rw [ask?_eq (stage?_eq here)] at asked
  exact ⟨asked, Channel.accepts_iff.1 accepted⟩

/-- What a reply that counts does to the evaluation. -/
theorem after_of_replies {ask : Ask} {reply : Except Error Reply}
    (keyed : (s.after schedule n).Keyed) (here : (s.after schedule n).evaluations[i]? = some e)
    (h : Replies s schedule i n ask reply) :
    (s.after schedule (n + 1)).evaluations[i]? = some e ∧
      ∃ key, e.stage.ask? = some (ask, key) ∧ (s.after schedule n).debugger.reply? key = none ∧
        (s.after schedule (n + 1)).debugger.reply? key = some reply := by
  obtain ⟨key, text, isOpen, submits, rfl⟩ := h
  obtain ⟨asked, p, found, unanswered⟩ := open?_eq_some here isOpen
  have kind := keyed.kinds i ask key p ((ask?_eq (stage?_eq here)).trans asked) found
  refine ⟨?_, key, asked, ?_, ?_⟩
  · rw [after, submits]
    exact here
  · rw [Debugger.reply?, found, Option.bind_some, unanswered]
  · rw [after, submits, act, Debugger.submit, Debugger.reply?, Channel.find?_submit, if_pos rfl,
      found, Option.map_some, Option.bind_some, unanswered, kind, Option.none_or]

/-- The next action means nothing to an evaluation that is on track, or brings
    it nearer to its end, or is the reply `eval` to a command prompt. -/
theorem idle_or_nearer {stage : Stage} (keyed : (s.after schedule n).Keyed)
    (unhurried : schedule n ≠ .expire i)
    (here : (s.after schedule n).evaluations[i]? = some { e with stage })
    (track : stage.OnTrack client (s.after schedule n).debugger plain) :
    Idle s schedule i n ∨
      (∃ stage', (s.after schedule (n + 1)).evaluations[i]? = some { e with stage := stage' } ∧
        Nearer stage' (s.after schedule (n + 1)).debugger stage (s.after schedule n).debugger) ∨
      ((s.after schedule (n + 1)).evaluations[i]? = some { e with stage } ∧
        Replies s schedule i n .command (.ok (.command .eval)) ∧
        4 ≤ stage.toGo (s.after schedule n).debugger) := by
  rcases turn keyed unhurried here with ⟨-, stage', d, steps, moved⟩ | ⟨still, replies⟩
  · refine .inr (.inl ⟨stage', ?_, ?_⟩)
    · rw [moved, evaluation_moved here, if_pos rfl]
    · rw [moved]
      exact steps.nearer keyed.sound track
  · have idle : (∀ ask key, stage.ask? = some (ask, key) →
        (s.after schedule (n + 1)).debugger.reply? key =
          (s.after schedule n).debugger.reply? key) → Idle s schedule i n := by
      intro same f there
      rw [here] at there
      cases there
      exact ⟨still, same⟩
    cases asked : stage.ask? with
    | none => exact .inl (idle fun ask key asked' => by rw [asked] at asked'; cases asked')
    | some prompt =>
      obtain ⟨ask, key⟩ := prompt
      rcases replies ask key asked with same | ⟨reply, replied, unanswered, counts⟩
      · refine .inl (idle fun ask' key' asked' => ?_)
        rw [asked] at asked'
        cases asked'
        exact same
      · rcases Stage.toGo_of_reply asked unanswered replied with shorter | ⟨rfl, rfl⟩
        · exact .inr (.inl ⟨stage, still, Prod.Lex.right _ shorter⟩)
        · exact .inr (.inr ⟨still, counts, Stage.le_toGo_of_open asked unanswered⟩)

/-! ### Nothing happens -/

theorem still_of_idle (idle : ∀ m, n ≤ m → Idle s schedule i m)
    (here : (s.after schedule n).evaluations[i]? = some e) {m : Nat} (le : n ≤ m) :
    (s.after schedule m).evaluations[i]? = some e := by
  induction le with
  | refl => exact here
  | step le ih => exact (idle _ le e ih).1

theorem reply?_of_idle (idle : ∀ m, n ≤ m → Idle s schedule i m)
    (here : (s.after schedule n).evaluations[i]? = some e) {ask : Ask} {key : Key}
    (asked : e.stage.ask? = some (ask, key)) {m : Nat} (le : n ≤ m) :
    (s.after schedule m).debugger.reply? key = (s.after schedule n).debugger.reply? key := by
  induction le with
  | refl => rfl
  | step le ih => exact ((idle _ le e (still_of_idle idle here le)).2 ask key asked).trans ih

/-- Until something happens, everything is as it was. -/
theorem exists_first_of_not_idle {m : Nat} (le : n ≤ m) (busy : ¬ Idle s schedule i m)
    (here : (s.after schedule n).evaluations[i]? = some e) :
    ∃ k, n ≤ k ∧ ¬ Idle s schedule i k ∧ (s.after schedule k).evaluations[i]? = some e ∧
      e.stage.toGo (s.after schedule k).debugger = e.stage.toGo (s.after schedule n).debugger := by
  obtain ⟨distance, rfl⟩ := Nat.exists_eq_add_of_le le
  clear le
  induction distance generalizing n with
  | zero => exact ⟨n, Nat.le_refl n, busy, here, rfl⟩
  | succ distance ih =>
    by_cases idle : Idle s schedule i n
    · obtain ⟨there, silent⟩ := idle e here
      have busy' : ¬ Idle s schedule i (n + 1 + distance) := by
        rw [Nat.add_assoc, Nat.add_comm 1]
        exact busy
      obtain ⟨k, leK, busyK, hereK, same⟩ := ih there busy'
      exact ⟨k, Nat.le_of_succ_le leK, busyK, hereK, same.trans (Stage.toGo_congr silent)⟩
    · exact ⟨n, Nat.le_refl n, idle, here, rfl⟩

theorem not_idle_of_replies {ask : Ask} {reply : Except Error Reply}
    (keyed : (s.after schedule n).Keyed) (here : (s.after schedule n).evaluations[i]? = some e)
    (h : Replies s schedule i n ask reply) : ¬ Idle s schedule i n := by
  intro idle
  obtain ⟨-, key, asked, unanswered, replied⟩ := after_of_replies keyed here h
  rw [(idle e here).2 ask key asked, unanswered] at replied
  cases replied

theorem not_idle_of_advance (keyed : (s.after schedule n).Keyed)
    (here : (s.after schedule n).evaluations[i]? = some e)
    (track : e.stage.OnTrack client (s.after schedule n).debugger plain)
    (own : schedule n = .advance i) (can : (s.after schedule n).CanAdvance i) :
    ¬ Idle s schedule i n := by
  intro idle
  obtain ⟨⟨e', d⟩, moved⟩ := Option.isSome_iff_exists.1 can
  obtain ⟨f, there, stepped⟩ := Option.bind_eq_some_iff.1 moved
  rw [here] at there
  cases there
  obtain ⟨still, silent⟩ := idle e here
  obtain ⟨lt, -⟩ := List.getElem?_eq_some_iff.1 here
  rw [after, own, act_advance here stepped] at still silent
  rw [List.getElem?_set_self lt] at still
  cases still
  obtain ⟨steps, -⟩ := steps_of_step? stepped
  rcases (steps.nearer keyed.sound track).ne with further | shorter
  · exact further rfl
  · rw [Stage.toGo_congr silent] at shorter
    exact Nat.lt_irrefl _ shorter

section

variable (keyed : s.Keyed) (ticketed : s.Ticketed) (attended : s.Attended schedule i client)
  (untripped : ∀ n, (s.after schedule n).result? i = none →
    (s.after schedule n).debugger.isTripped i = false)
  (friendly : ∀ n ask reply, Replies s schedule i n ask reply → Friendly ask reply)
  (start : s.evaluations[i]? = some e) (track : e.stage.OnTrack client s.debugger plain)
include keyed ticketed attended untripped friendly start track

/-- Something happens to an evaluation that runs. -/
theorem exists_not_idle (n : Nat) (runs : (s.after schedule n).result? i = none) :
    ∃ m, n ≤ m ∧ ¬ Idle s schedule i m := by
  -- otherwise it stands before a prompt that is answered, or can always make a step
  refine Classical.byContradiction fun none => ?_
  have idle : ∀ m, n ≤ m → Idle s schedule i m := fun m le =>
    Classical.byContradiction fun busy => none ⟨m, le, busy⟩
  have keyedAt : ∀ m, (s.after schedule m).Keyed := keyed.after schedule
  obtain ⟨stage, here, trackHere⟩ :=
    onTrack_after keyed ticketed attended untripped friendly start track n
  have still : ∀ m, n ≤ m → (s.after schedule m).evaluations[i]? = some { e with stage } :=
    fun m le => still_of_idle idle here le
  have trackAt : ∀ m, n ≤ m → stage.OnTrack client (s.after schedule m).debugger plain := by
    intro m le
    obtain ⟨stage', there, track'⟩ :=
      onTrack_after keyed ticketed attended untripped friendly start track m
    rw [still m le] at there
    cases there
    exact track'
  have runsAt : ∀ m, n ≤ m → (s.after schedule m).result? i = Option.none := by
    intro m le
    rw [result?, here] at runs
    rw [result?, still m le]
    exact runs
  have unasked : ∀ m ask key, n ≤ m → stage.ask? = some (ask, key) →
      (s.after schedule m).debugger.accepts key = true → False := by
    intro m ask key le asked accepted
    obtain ⟨m', le', text, submits⟩ :=
      attended.answered m ask key (open?_eq (still m le) asked accepted)
    have leN := Nat.le_trans le le'
    have unanswered : (s.after schedule m').debugger.reply? key = Option.none := by
      obtain ⟨p, found, noReply⟩ := Channel.accepts_iff.1 accepted
      have silent := reply?_of_idle (fun k leK => idle k (Nat.le_trans le leK)) (still m le) asked le'
      rw [silent, Debugger.reply?, found, Option.bind_some, noReply]
    have held := held?_of_ask? ((ask?_eq (stage?_eq (still m' leN))).trans asked)
    obtain ⟨p, found⟩ := Channel.mem_keys_iff.1 ((keyedAt m').pending i key held)
    rw [Debugger.reply?, found, Option.bind_some] at unanswered
    exact not_idle_of_replies (keyedAt m') (still m' leN)
      ⟨key, text, open?_eq (still m' leN) asked (Channel.accepts_iff.2 ⟨p, found, unanswered⟩),
        submits, rfl⟩ (idle m' leN)
  have advances : ∀ m, n ≤ m → (s.after schedule m).CanAdvance i := by
    intro m le
    have running : ∀ result, stage ≠ .ended result := by
      rintro result rfl
      have runs := runsAt m le
      rw [result?, still m le] at runs
      cases runs
    rcases step?_isSome_or_open (e := e) (trackAt m le) (attended.attached m (runsAt m le)) running
      with can | ⟨ask, key, asked, accepted⟩
    · rw [CanAdvance, move?, still m le]
      exact can
    · exact (unasked m ask key le asked accepted).elim
  obtain ⟨m, le, own⟩ := attended.fair n advances
  exact not_idle_of_advance (keyedAt m) (still m le) (trackAt m le) own (advances m le) (idle m le)

/-- The first thing that happens to an evaluation that runs. -/
theorem exists_first {stage : Stage}
    (here : (s.after schedule n).evaluations[i]? = some { e with stage })
    (running : ∀ result, stage ≠ .ended result) :
    ∃ m, n ≤ m ∧ ¬ Idle s schedule i m ∧
      (s.after schedule m).evaluations[i]? = some { e with stage } ∧
      stage.toGo (s.after schedule m).debugger = stage.toGo (s.after schedule n).debugger := by
  have runs : (s.after schedule n).result? i = none := by
    rw [result?, here, Option.bind_some]
    cases stage with
    | running | paused => rfl
    | ended result => exact absurd rfl (running result)
  obtain ⟨m, le, busy⟩ :=
    exists_not_idle keyed ticketed attended untripped friendly start track n runs
  exact exists_first_of_not_idle le busy here

/-- An evaluation goes on in its program, or ends, if no `eval` comes any more
    or the command with which it goes on is already there. -/
theorem exists_further (toGo : Nat) : ∀ {n : Nat} {stage : Stage},
    (s.after schedule n).evaluations[i]? = some { e with stage } →
    stage.toGo (s.after schedule n).debugger = toGo →
    (toGo ≤ 3 ∨ ∀ m, n ≤ m → ¬ Replies s schedule i m .command (.ok (.command .eval))) →
    ∃ m, n ≤ m ∧ ∃ stage', (s.after schedule m).evaluations[i]? = some { e with stage := stage' } ∧
      (Run.Follows stage'.rest stage.rest ∨ ∃ result, stage' = .ended result) := by
  -- only `eval` makes the way longer, which `direct` excludes
  induction toGo using Nat.strongRecOn with
  | ind toGo ih =>
    intro n stage here same direct
    by_cases ended : ∃ result, stage = .ended result
    · exact ⟨n, Nat.le_refl n, stage, here, .inr ended⟩
    obtain ⟨m, le, busy, there, sameThere⟩ :=
      exists_first keyed ticketed attended untripped friendly start track here
        fun result h => ended ⟨result, h⟩
    have keyedThere := keyed.after schedule m
    obtain ⟨stage', there', trackThere⟩ :=
      onTrack_after keyed ticketed attended untripped friendly start track m
    rw [there] at there'
    cases there'
    rcases idle_or_nearer keyedThere (attended.unhurried m) there trackThere with
      idle | ⟨stage', next, nearer⟩ | ⟨-, again, long⟩
    · exact absurd idle busy
    · rcases Prod.lex_def.1 nearer with follows | ⟨rest, less⟩
      · exact ⟨m + 1, Nat.le_succ_of_le le, stage', next, .inl follows⟩
      · rw [sameThere, same] at less
        have directNext : stage'.toGo (s.after schedule (m + 1)).debugger ≤ 3 ∨
            ∀ k, m + 1 ≤ k → ¬ Replies s schedule i k .command (.ok (.command .eval)) :=
          direct.imp (fun short => Nat.le_trans (Nat.le_of_lt less) short)
            fun quiet k leK => quiet k (Nat.le_trans (Nat.le_succ_of_le le) leK)
        obtain ⟨k, leK, stage'', hereK, further⟩ := ih _ less next rfl directNext
        change stage'.rest = stage.rest at rest
        rw [rest] at further
        exact ⟨k, Nat.le_trans (Nat.le_succ_of_le le) leK, stage'', hereK, further⟩
    · rw [sameThere, same] at long
      rcases direct with short | quiet
      · omega
      · exact absurd again (quiet m le)

/-- As long as the program does not go on, the evaluation stays where it is in
    it. -/
theorem further_or_stays {stage : Stage}
    (here : (s.after schedule n).evaluations[i]? = some { e with stage }) {m : Nat} (le : n ≤ m) :
    (∃ k, n ≤ k ∧ ∃ stage', (s.after schedule k).evaluations[i]? = some { e with stage := stage' } ∧
      Run.Follows stage'.rest stage.rest) ∨
    ∃ stage', (s.after schedule m).evaluations[i]? = some { e with stage := stage' } ∧
      stage'.rest = stage.rest := by
  induction le with
  | refl => exact .inr ⟨stage, here, rfl⟩
  | @step m le ih =>
    rcases ih with further | ⟨stage', hereM, rest⟩
    · exact .inl further
    · obtain ⟨stage'', there, track'⟩ :=
        onTrack_after keyed ticketed attended untripped friendly start track m
      rw [hereM] at there
      cases there
      have keyedM := keyed.after schedule m
      rcases idle_or_nearer keyedM (attended.unhurried m) hereM track' with
        idle | ⟨next, hereNext, nearer⟩ | ⟨still, -, -⟩
      · exact .inr ⟨stage', (idle _ hereM).1, rest⟩
      · rcases Prod.lex_def.1 nearer with follows | ⟨same, -⟩
        · exact .inl ⟨m + 1, Nat.le_succ_of_le le, next, hereNext, rest ▸ follows⟩
        · exact .inr ⟨next, hereNext, same.trans rest⟩
      · exact .inr ⟨stage', still, rest⟩

/-- An evaluation goes on in its program, or ends. -/
theorem exists_follows (decided : Decided s schedule i) {stage : Stage}
    (here : (s.after schedule n).evaluations[i]? = some { e with stage }) :
    ∃ m, n ≤ m ∧ ∃ stage', (s.after schedule m).evaluations[i]? = some { e with stage := stage' } ∧
      (Run.Follows stage'.rest stage.rest ∨ ∃ result, stage' = .ended result) := by
  have further : ∀ {m : Nat} {stage' : Stage}, n ≤ m →
      (s.after schedule m).evaluations[i]? = some { e with stage := stage' } →
      stage'.rest = stage.rest →
      (stage'.toGo (s.after schedule m).debugger ≤ 3 ∨
        ∀ k, m ≤ k → ¬ Replies s schedule i k .command (.ok (.command .eval))) →
      ∃ m, n ≤ m ∧ ∃ stage', (s.after schedule m).evaluations[i]? = some { e with stage := stage' } ∧
        (Run.Follows stage'.rest stage.rest ∨ ∃ result, stage' = .ended result) := by
    intro m stage' le hereM rest direct
    obtain ⟨k, leK, stage'', hereK, far⟩ :=
      exists_further keyed ticketed attended untripped friendly start track _ hereM rfl direct
    exact ⟨k, Nat.le_trans le leK, stage'', hereK, rest ▸ far⟩
  have stays := fun {m : Nat} (le : n ≤ m) =>
    further_or_stays keyed ticketed attended untripped friendly start track here le
  rcases decided n with ⟨m, le, c, steps, counts⟩ | ⟨m, le, quiet⟩
  · rcases stays le with ⟨k, leK, next, hereK, follows⟩ | ⟨stage', hereM, rest⟩
    · exact ⟨k, leK, next, hereK, .inl follows⟩
    · have keyedM := keyed.after schedule m
      obtain ⟨still, key, asked, -, replied⟩ := after_of_replies keyedM hereM counts
      exact further (Nat.le_succ_of_le le) still rest
        (.inl (Stage.toGo_le_of_steps asked replied steps))
  · rcases stays le with ⟨k, leK, next, hereK, follows⟩ | ⟨stage', hereM, rest⟩
    · exact ⟨k, leK, next, hereK, .inl follows⟩
    · exact further le hereM rest (.inr quiet)

/-- An evaluation that is attended to ends, and with the result that it would
    have had if no breakpoint had been reached. -/
theorem exists_ended (decided : Decided s schedule i) :
    ∃ n, (s.after schedule n).evaluations[i]? = some { e with stage := .ended plain } := by
  have ends : ∀ (rest : Run Result) (n : Nat) (stage : Stage), stage.rest = rest →
      (s.after schedule n).evaluations[i]? = some { e with stage } →
      ∃ m result, (s.after schedule m).evaluations[i]? =
        some { e with stage := .ended result } := by
    intro rest
    -- what is left of the program is each time a part of what was left before
    induction rest using Run.follows_wf.induction with
    | _ rest ih =>
      rintro n stage rfl here
      obtain ⟨m, -, stage', there, follows | ⟨result, rfl⟩⟩ :=
        exists_follows keyed ticketed attended untripped friendly start track decided here
      · exact ih _ follows m stage' rfl there
      · exact ⟨m, result, there⟩
  obtain ⟨n, result, there⟩ := ends _ 0 e.stage rfl start
  obtain ⟨stage, there', track'⟩ :=
    onTrack_after keyed ticketed attended untripped friendly start track n
  rw [there] at there'
  cases there'
  cases track'
  exact ⟨n, there⟩

end

end Service

end Stepper.Debug
