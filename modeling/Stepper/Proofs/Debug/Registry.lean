/-
  The store of sessions and its history.

  An `Operation` is what an evaluation or a client does with the store;
  `SessionStore.run` does some from the beginning.  What the store answers can
  be told from the operations alone, session by session: whether a session is
  known and which evaluations run in it from those since it was closed last
  (`known_run`, `running_run`), its policy from those since the policy was given
  up or set last (`policy_run`).  `follows_run` puts this together for all that
  can be asked next.
-/
import Mathlib.Data.List.DropRight
import Stepper.Proofs.Data.Table
import Stepper.Proofs.Debug.Session
import Stepper.Proofs.Text.Bytes

namespace Stepper.Debug

theorem SkipPolicy.atTopLevel_atTopLevel (policy : SkipPolicy) :
    policy.atTopLevel.atTopLevel = policy.atTopLevel := by
  cases policy <;> rfl

namespace SessionStore

open Stepper.Data Stepper.Eval

/-! ## Operations -/

/-- Something that is done with the store. -/
inductive Operation where
  | setPolicy (name : String) (policy : SkipPolicy)
  | policy (name : String)
  | skips (name : String) (place : Coordinate)
  | begin (name : String) (ticket : Ticket)
  | startForm (name : String)
  | finish (name : String) (ticket : Ticket)
  | close (name : String)
  deriving DecidableEq

/-- What the store answers. -/
inductive Answer where
  | done
  | policy (policy : SkipPolicy)
  | skips (passes : Bool)
  /-- The evaluations of a session that has been closed, none if it is not
      known. -/
  | closed (running : Option (List Ticket))
  deriving DecidableEq

/-- Does an operation. -/
def perform (store : SessionStore) : Operation → Answer × SessionStore
  | .setPolicy name policy => (.done, store.setPolicy name policy)
  | .policy name => (.policy (store.policy name), store)
  | .skips name place => (.skips (store.skips name place), store)
  | .begin name ticket => (.done, store.begin name ticket)
  | .startForm name => (.done, store.startForm name)
  | .finish name ticket => (.done, store.finish name ticket)
  | .close name =>
    match store.close? name with
    | none => (.closed none, store)
    | some (running, store) => (.closed (some running), store)

/-- Does some operations, from the beginning. -/
def run (past : List Operation) : SessionStore :=
  past.foldl (fun store op => (store.perform op).2) empty

/-! ## Histories -/

namespace Operation

/-- The session with which something is done. -/
def session : Operation → String
  | setPolicy name _ | policy name | skips name _ | begin name _ | startForm name | finish name _
  | close name => name

/-- It makes the session known. -/
def Opens (name : String) (op : Operation) : Prop :=
  (∃ policy, op = setPolicy name policy) ∨ ∃ ticket, op = begin name ticket

/-- Whether it replaces the policy of the session. -/
def resets (name : String) : Operation → Bool
  | setPolicy other _ | begin other _ | close other => other == name
  | _ => false

end Operation

/-- What has been done since the session was closed last. -/
def sinceClose (name : String) (past : List Operation) : List Operation :=
  past.rtakeWhile (· != .close name)

/-- A policy was set or an evaluation begun since the session was closed
    last. -/
def Known (name : String) (past : List Operation) : Prop :=
  ∃ op ∈ sinceClose name past, op.Opens name

/-- The evaluations that were begun in the session and not finished later, in
    the order of their beginnings. -/
def unfinished (name : String) : List Operation → List Ticket
  | [] => []
  | .begin other ticket :: later =>
    if other = name ∧ .finish name ticket ∉ later then ticket :: unfinished name later
    else unfinished name later
  | _ :: later => unfinished name later

/-- The policy that was set last, unless an evaluation has begun or the session
    was closed since; one for the inside of a form lasts until the next
    top-level form starts. -/
def policyLeft (name : String) (past : List Operation) : SkipPolicy :=
  match past.reverse.find? (·.resets name) with
  | some (.setPolicy _ policy) =>
    if .startForm name ∈ past.rtakeWhile (!·.resets name) then policy.atTopLevel else policy
  | _ => .nothing

variable {store store' : SessionStore} {name : String} {past : List Operation} {op : Operation}

/-! ## One operation -/

theorem run_concat (past : List Operation) (op : Operation) :
    run (past ++ [op]) = ((run past).perform op).2 := by
  rw [run, List.foldl_append, List.foldl_cons, List.foldl_nil, run]

theorem perform_close (store : SessionStore) (name : String) :
    (store.perform (.close name)).1 = .closed ((store.find? name).map Session.running) := by
  rw [perform, close?]
  cases store.find? name <;> rfl

theorem find?_perform_close : (store.perform (.close name)).2.find? name = none := by
  rw [perform]
  split
  · rename_i unknown
    exact Option.map_eq_none_iff.1 unknown
  · rename_i closed
    exact (find?_of_close? closed).trans (if_pos rfl)

/-- An operation concerns no other session than its own. -/
theorem find?_perform_of_ne (other : op.session ≠ name) :
    (store.perform op).2.find? name = store.find? name := by
  have apart : name ≠ op.session := Ne.symm other
  cases op with
  | setPolicy => exact (find?_setPolicy _).trans (if_neg apart)
  | policy | skips => rfl
  | begin => exact (find?_begin _).trans (if_neg apart)
  | startForm => exact find?_startForm.trans (if_neg apart)
  | finish => exact (find?_finish _).trans (if_neg apart)
  | close closing =>
    rw [perform]
    split
    · rfl
    · rename_i closed
      exact (find?_of_close? closed).trans (if_neg apart)

/-- What is answered depends on no other session. -/
theorem answer_congr (same : store.find? op.session = store'.find? op.session) :
    (store.perform op).1 = (store'.perform op).1 := by
  cases op with
  | setPolicy | begin | startForm | finish => rfl
  | policy => exact congrArg Answer.policy (policy_congr same)
  | skips name place =>
    exact congrArg (fun policy => Answer.skips (policy.skips place)) (policy_congr same)
  | close name =>
    have same : store.find? name = store'.find? name := same
    rw [perform_close, perform_close, same]

/-! ## Known sessions -/

theorem sinceClose_close (name : String) (past : List Operation) :
    sinceClose name (past ++ [.close name]) = [] :=
  List.rtakeWhile_concat_neg _ _ _ (by simp)

theorem sinceClose_concat (unclosed : op ≠ .close name) :
    sinceClose name (past ++ [op]) = sinceClose name past ++ [op] :=
  List.rtakeWhile_concat_pos _ _ _ (bne_iff_ne.2 unclosed)

theorem mem_names_perform : name ∈ (store.perform op).2.names ↔
    (name ∈ store.names ∨ op.Opens name) ∧ op ≠ .close name := by
  rw [mem_names_iff, mem_names_iff]
  by_cases own : op.session = name
  · subst own
    cases op with
    | setPolicy other policy =>
      have known : (store.setPolicy other policy).find? other = some _ :=
        (find?_setPolicy policy).trans (if_pos rfl)
      simp [perform, Operation.session, Operation.Opens, known]
    | begin other ticket =>
      have known : (store.begin other ticket).find? other = some _ :=
        (find?_begin ticket).trans (if_pos rfl)
      simp [perform, Operation.session, Operation.Opens, known]
    | policy | skips => simp [perform, Operation.Opens]
    | startForm other =>
      have same : (store.startForm other).find? other = _ := find?_startForm.trans (if_pos rfl)
      simp [perform, Operation.session, Operation.Opens, same]
    | finish other ticket =>
      have same : (store.finish other ticket).find? other = _ :=
        (find?_finish ticket).trans (if_pos rfl)
      simp [perform, Operation.session, Operation.Opens, same]
    | close other =>
      have gone : (store.perform (.close other)).2.find? other = none := find?_perform_close
      simp [Operation.session, gone]
  · have different : op ≠ .close name := by
      rintro rfl
      exact own rfl
    have silent : ¬ op.Opens name := by
      rintro (⟨policy, rfl⟩ | ⟨ticket, rfl⟩) <;> exact own rfl
    rw [find?_perform_of_ne own]
    simp [different, silent]

theorem known_concat :
    Known name (past ++ [op]) ↔ (Known name past ∨ op.Opens name) ∧ op ≠ .close name := by
  by_cases closing : op = .close name
  · rw [closing, Known, sinceClose_close]
    simp
  · rw [Known, sinceClose_concat closing, Known]
    simp [or_and_right, exists_or, closing]

/-- A session is known if something has made it so since it was closed last. -/
theorem known_run (name : String) (past : List Operation) :
    name ∈ (run past).names ↔ Known name past := by
  induction past using List.reverseRecOn with
  | nil => exact ⟨nofun, fun ⟨_, mem, _⟩ => nomatch mem⟩
  | append_singleton past op ih => rw [run_concat, mem_names_perform, ih, known_concat]

/-! ## Running evaluations -/

/-- What an operation makes of the evaluations that run in a session. -/
def Operation.onRunning (name : String) (running : List Ticket) : Operation → List Ticket
  | begin other ticket => if other = name then running ++ [ticket] else running
  | finish other ticket => if other = name then running.filter (· != ticket) else running
  | close other => if other = name then [] else running
  | _ => running

theorem running_perform :
    (store.perform op).2.running name = op.onRunning name (store.running name) := by
  by_cases own : op.session = name
  · subst own
    cases op with
    | setPolicy other policy => exact running_setPolicy policy
    | policy | skips => rfl
    | begin other ticket =>
      exact (running_begin ticket).trans ((if_pos rfl).trans (if_pos rfl).symm)
    | startForm other => exact running_startForm
    | finish other ticket =>
      exact (running_finish ticket).trans ((if_pos rfl).trans (if_pos rfl).symm)
    | close other =>
      have gone : (store.perform (.close other)).2.find? other = none := find?_perform_close
      rw [Operation.session, running, gone]
      exact (if_pos rfl).symm
  · rw [running_congr (find?_perform_of_ne own)]
    cases op with
    | begin | finish | close => exact (if_neg own).symm
    | setPolicy | policy | skips | startForm => rfl

theorem Operation.onRunning_finish (name : String) (ticket : Ticket) (running : List Ticket) :
    (finish name ticket).onRunning name running = running.filter (· != ticket) :=
  if_pos rfl

theorem Operation.onRunning_cons {ticket : Ticket} {running : List Ticket}
    (unfinished : op ≠ .finish name ticket) (unclosed : op ≠ .close name) :
    op.onRunning name (ticket :: running) = ticket :: op.onRunning name running := by
  cases op with
  | setPolicy | policy | skips | startForm => rfl
  | begin other _ =>
    simp only [onRunning]
    split <;> rfl
  | finish other finished =>
    simp only [onRunning]
    split
    · rename_i own
      subst own
      refine List.filter_cons_of_pos (bne_iff_ne.2 ?_)
      rintro rfl
      exact unfinished rfl
    · rfl
  | close other =>
    simp only [onRunning]
    split
    · rename_i own
      exact absurd (congrArg Operation.close own) unclosed
    · rfl

theorem unfinished_concat (unclosed : op ≠ .close name) (ops : List Operation) :
    unfinished name (ops ++ [op]) = op.onRunning name (unfinished name ops) := by
  induction ops with
  | nil =>
    cases op with
    | setPolicy | policy | skips | startForm => rfl
    | begin other ticket => simp [unfinished, Operation.onRunning]
    | finish other ticket => simp [unfinished, Operation.onRunning]
    | close other => simp [unfinished, Operation.onRunning]
  | cons first ops ih =>
    rw [List.cons_append]
    cases first with
    | setPolicy | policy | skips | startForm | finish | close => exact ih
    | begin other ticket =>
      rw [unfinished, unfinished]
      by_cases own : other = name
      · by_cases finished : .finish name ticket ∈ ops
        · have still : .finish name ticket ∈ ops ++ [op] := List.mem_append_left _ finished
          rw [if_neg fun h => h.2 still, if_neg fun h => h.2 finished, ih]
        · by_cases finishes : op = .finish name ticket
          · have now : .finish name ticket ∈ ops ++ [op] := by simp [finishes]
            rw [if_neg fun h => h.2 now, if_pos ⟨own, finished⟩, ih, finishes,
              Operation.onRunning_finish, Operation.onRunning_finish,
              List.filter_cons_of_neg (by simp)]
          · have never : .finish name ticket ∉ ops ++ [op] := by
              simp [finished, Ne.symm finishes]
            rw [if_pos ⟨own, never⟩, if_pos ⟨own, finished⟩, ih,
              Operation.onRunning_cons finishes unclosed]
      · rw [if_neg fun h => own h.1, if_neg fun h => own h.1, ih]

theorem running_run (name : String) (past : List Operation) :
    (run past).running name = unfinished name (sinceClose name past) := by
  induction past using List.reverseRecOn with
  | nil => rfl
  | append_singleton past op ih =>
    rw [run_concat, running_perform, ih]
    by_cases closing : op = .close name
    · rw [closing, sinceClose_close, Operation.onRunning, if_pos rfl, unfinished]
    · rw [sinceClose_concat closing, unfinished_concat closing]

/-! ## Policies -/

/-- What an operation makes of the policy of a session. -/
def Operation.onPolicy (name : String) (policy : SkipPolicy) : Operation → SkipPolicy
  | setPolicy other next => if other = name then next else policy
  | begin other _ | close other => if other = name then .nothing else policy
  | startForm other => if other = name then policy.atTopLevel else policy
  | _ => policy

theorem policy_perform :
    (store.perform op).2.policy name = op.onPolicy name (store.policy name) := by
  by_cases own : op.session = name
  · subst own
    cases op with
    | setPolicy other policy =>
      exact (policy_setPolicy_self policy).trans (if_pos rfl).symm
    | policy | skips => rfl
    | begin other ticket => exact (policy_begin_self ticket).trans (if_pos rfl).symm
    | startForm other => exact policy_startForm_self.trans (if_pos rfl).symm
    | finish other ticket => exact policy_finish ticket
    | close other =>
      have gone : (store.perform (.close other)).2.find? other = none := find?_perform_close
      rw [Operation.session, policy, gone]
      exact (if_pos rfl).symm
  · rw [policy_congr (find?_perform_of_ne own)]
    cases op with
    | setPolicy | begin | startForm | close => exact (if_neg own).symm
    | policy | skips | finish => rfl

theorem policyLeft_of_resets (resets : op.resets name = true) :
    policyLeft name (past ++ [op]) =
      match op with
      | .setPolicy _ policy => policy
      | _ => .nothing := by
  have none : (past ++ [op]).rtakeWhile (!·.resets name) = [] :=
    List.rtakeWhile_concat_neg _ _ _ (by simp [resets])
  rw [policyLeft, List.reverse_append, List.reverse_singleton, List.singleton_append,
    List.find?_cons_of_pos resets, none]
  cases op <;> rfl

theorem policyLeft_of_not_resets (kept : op.resets name = false) :
    policyLeft name (past ++ [op]) =
      if op = .startForm name then (policyLeft name past).atTopLevel else policyLeft name past := by
  have since : (past ++ [op]).rtakeWhile (!·.resets name) =
      past.rtakeWhile (!·.resets name) ++ [op] :=
    List.rtakeWhile_concat_pos _ _ _ (by simp [kept])
  rw [policyLeft, List.reverse_append, List.reverse_singleton, List.singleton_append,
    List.find?_cons_of_neg (by simp [kept]), since, policyLeft]
  split
  · rename_i policy _
    by_cases starts : op = .startForm name
    · rw [if_pos starts, if_pos (by simp [starts])]
      split
      · rw [SkipPolicy.atTopLevel_atTopLevel]
      · rfl
    · have same : .startForm name ∈ past.rtakeWhile (!·.resets name) ++ [op] ↔
          .startForm name ∈ past.rtakeWhile (!·.resets name) := by
        simp [Ne.symm starts]
      simp only [if_neg starts, same]
  · split <;> rfl

theorem policyLeft_concat :
    policyLeft name (past ++ [op]) = op.onPolicy name (policyLeft name past) := by
  cases resets : op.resets name with
  | true =>
    rw [policyLeft_of_resets resets]
    cases op with
    | setPolicy | begin | close => exact (if_pos (eq_of_beq resets)).symm
    | policy | skips | startForm | finish => cases resets
  | false =>
    rw [policyLeft_of_not_resets resets]
    cases op with
    | setPolicy | begin | close => exact (if_neg (ne_of_beq_false resets)).symm
    | policy | skips | finish => rfl
    | startForm other => simp only [Operation.startForm.injEq, Operation.onPolicy]

theorem policy_run (name : String) (past : List Operation) :
    (run past).policy name = policyLeft name past := by
  induction past using List.reverseRecOn with
  | nil => rfl
  | append_singleton past op ih => rw [run_concat, policy_perform, ih, policyLeft_concat]

/-! ## The store and its history -/

/-- What the store answers next is told by its history. -/
structure Follows (store : SessionStore) (past : List Operation) : Prop where
  /-- There is nothing to close if nothing has made the session known since it
      was closed last. -/
  unknown : ∀ name, (store.perform (.close name)).1 = .closed none ↔ ¬ Known name past
  /-- Otherwise it gives the evaluations begun since then and not finished. -/
  running : ∀ name, Known name past →
    (store.perform (.close name)).1 = .closed (some (unfinished name (sinceClose name past)))
  /-- The policy is the one that is left; an unknown session has none. -/
  policy : ∀ name, (store.perform (.policy name)).1 = .policy (policyLeft name past)
  unset : ∀ name, ¬ Known name past → policyLeft name past = .nothing
  skips : ∀ name place,
    (store.perform (.skips name place)).1 = .skips ((policyLeft name past).skips place)
  /-- The names are those of the known sessions. -/
  names : ∀ name, name ∈ store.names ↔ Known name past
  /-- They ascend byte by byte. -/
  ascending : store.names.Pairwise fun a b => Text.bytes a < Text.bytes b
  /-- What is done with one session changes no answer about another. -/
  apart : ∀ op other, op.session ≠ other.session →
    ((store.perform op).2.perform other).1 = (store.perform other).1
  namesApart : ∀ op name, op.session ≠ name →
    (name ∈ (store.perform op).2.names ↔ name ∈ store.names)

/-- Whatever is done with the store in whatever order. -/
theorem follows_run (past : List Operation) : (run past).Follows past where
  unknown name := by
    rw [perform_close, ← known_run, mem_names_iff]
    cases (run past).find? name <;> simp
  running name known := by
    obtain ⟨session, found⟩ := mem_names_iff.1 ((known_run name past).2 known)
    rw [perform_close, ← running_run, running, found]
    rfl
  policy name := by rw [perform, policy_run]
  unset name unknown := by
    have absent : (run past).find? name = none := by
      rw [Option.eq_none_iff_forall_ne_some]
      intro session found
      exact unknown ((known_run name past).1 (mem_names_iff.2 ⟨session, found⟩))
    rw [← policy_run, SessionStore.policy, absent]
    rfl
  skips name place := by rw [perform, skips, policy_run]
  names name := known_run name past
  ascending := by
    refine List.Pairwise.map _ ?_ (run past).ordered
    intro a b
    exact Text.bytes_lt_iff.2
  apart op other different := answer_congr (find?_perform_of_ne different)
  namesApart op name different := by
    rw [mem_names_iff, find?_perform_of_ne different, mem_names_iff]

example : ((run [.begin "s" 7, .setPolicy "s" .everything, .begin "s" 8, .startForm "s",
    .begin "s" 7, .finish "s" 8, .close "t"]).perform (.close "s")).1 = .closed (some [7, 7]) := by
  decide

end SessionStore

end Stepper.Debug
