/-
  What the operations of the session store do to a session.

  `find?_setPolicy`, `find?_begin`, `find?_startForm`, `find?_finish` and
  `find?_of_close?` say what each operation makes of the session of any name;
  the equations for policies follow.
-/
import Stepper.Debug.Session

namespace Stepper.Debug.SessionStore

open Stepper.Data Stepper.Eval

variable {store : SessionStore} {name other : String}

theorem find?_put (session : Session) :
    (store.put name session).find? other
      = if other = name then some session else store.find? other :=
  Table.find?_insert name other session store.table

theorem find?_update (change : Session → Session) :
    (store.update name change).find? other
      = if other = name then some (change ((store.find? name).getD .new))
        else store.find? other :=
  find?_put _

theorem find?_updateKnown (change : Session → Session) :
    (store.updateKnown name change).find? other
      = if other = name then (store.find? name).map change else store.find? other := by
  unfold updateKnown
  split
  · rename_i session known
    rw [find?_put, known]
    rfl
  · rename_i unknown
    split
    · rename_i same
      rw [same, unknown]
      rfl
    · rfl

theorem mem_names_iff : name ∈ store.names ↔ ∃ session, store.find? name = some session :=
  Table.mem_names_iff

/-! ## Sessions -/

theorem find?_setPolicy (policy : SkipPolicy) :
    (store.setPolicy name policy).find? other
      = if other = name then some { (store.find? name).getD .new with policy }
        else store.find? other :=
  find?_update _

theorem find?_begin (ticket : Ticket) :
    (store.begin name ticket).find? other
      = if other = name then
          some ⟨.nothing, ((store.find? name).getD .new).running ++ [ticket]⟩
        else store.find? other :=
  find?_update _

theorem find?_startForm :
    (store.startForm name).find? other
      = if other = name then
          (store.find? name).map fun session =>
            { session with policy := session.policy.atTopLevel }
        else store.find? other :=
  find?_updateKnown _

theorem find?_finish (ticket : Ticket) :
    (store.finish name ticket).find? other
      = if other = name then
          (store.find? name).map fun session =>
            { session with running := session.running.filter (· != ticket) }
        else store.find? other :=
  find?_updateKnown _

theorem find?_of_close? {running : List Ticket} {store' : SessionStore}
    (h : store.close? name = some (running, store')) :
    store'.find? other = if other = name then none else store.find? other := by
  obtain ⟨session, -, closed⟩ := Option.map_eq_some_iff.1 h
  cases closed
  exact Table.find?_erase name other store.table

theorem find?_of_mem_close? {running : List Ticket} {store' : SessionStore}
    (h : store.close? name = some (running, store')) :
    ∃ session, store.find? name = some session ∧ session.running = running := by
  obtain ⟨session, known, closed⟩ := Option.map_eq_some_iff.1 h
  exact ⟨session, known, congrArg Prod.fst closed⟩

/-! ## Policies -/

theorem policy_congr {store' : SessionStore} (h : store'.find? other = store.find? other) :
    store'.policy other = store.policy other := by
  rw [policy, h, policy]

theorem policy_setPolicy_self (policy : SkipPolicy) :
    (store.setPolicy name policy).policy name = policy := by
  rw [SessionStore.policy, find?_setPolicy, if_pos rfl]
  rfl

theorem policy_setPolicy_of_ne (policy : SkipPolicy) (h : other ≠ name) :
    (store.setPolicy name policy).policy other = store.policy other :=
  policy_congr (by rw [find?_setPolicy, if_neg h])

theorem policy_begin_self (ticket : Ticket) :
    (store.begin name ticket).policy name = .nothing := by
  rw [policy, find?_begin, if_pos rfl]
  rfl

theorem policy_begin_of_ne (ticket : Ticket) (h : other ≠ name) :
    (store.begin name ticket).policy other = store.policy other :=
  policy_congr (by rw [find?_begin, if_neg h])

theorem policy_startForm_self :
    (store.startForm name).policy name = (store.policy name).atTopLevel := by
  rw [policy, find?_startForm, if_pos rfl, policy]
  cases store.find? name <;> rfl

theorem policy_startForm_of_ne (h : other ≠ name) :
    (store.startForm name).policy other = store.policy other :=
  policy_congr (by rw [find?_startForm, if_neg h])

theorem policy_finish (ticket : Ticket) :
    (store.finish name ticket).policy other = store.policy other := by
  rw [policy, find?_finish, policy]
  split
  · rename_i same
    rw [same]
    cases store.find? name <;> rfl
  · rfl

theorem policy_of_close? {running : List Ticket} {store' : SessionStore}
    (h : store.close? name = some (running, store')) (ne : other ≠ name) :
    store'.policy other = store.policy other :=
  policy_congr (by rw [find?_of_close? h, if_neg ne])

/-! ## Running evaluations -/

/-- The evaluations that run in a session. -/
def running (store : SessionStore) (name : String) : List Ticket :=
  ((store.find? name).map Session.running).getD []

theorem running_congr {store' : SessionStore} (h : store'.find? other = store.find? other) :
    store'.running other = store.running other := by
  rw [running, h, running]

theorem running_setPolicy (policy : SkipPolicy) :
    (store.setPolicy name policy).running other = store.running other := by
  rw [running, find?_setPolicy, running]
  split
  · rename_i same
    rw [same]
    cases store.find? name <;> rfl
  · rfl

theorem running_startForm : (store.startForm name).running other = store.running other := by
  rw [running, find?_startForm, running]
  split
  · rename_i same
    rw [same]
    cases store.find? name <;> rfl
  · rfl

theorem running_finish (ticket : Ticket) :
    (store.finish name ticket).running other =
      if other = name then (store.running name).filter (· != ticket) else store.running other := by
  rw [running, find?_finish]
  split
  · rw [running]
    cases store.find? name <;> rfl
  · rfl

theorem running_begin (ticket : Ticket) :
    (store.begin name ticket).running other =
      if other = name then store.running name ++ [ticket] else store.running other := by
  rw [running, find?_begin]
  split
  · rw [running]
    cases store.find? name <;> rfl
  · rfl

theorem eq_running_of_close? {running : List Ticket} {store' : SessionStore}
    (h : store.close? name = some (running, store')) : running = store.running name := by
  obtain ⟨session, known, same⟩ := find?_of_mem_close? h
  rw [SessionStore.running, known, ← same]
  rfl

theorem running_of_close? {running : List Ticket} {store' : SessionStore}
    (h : store.close? name = some (running, store')) :
    store'.running other = if other = name then [] else store.running other := by
  rw [SessionStore.running, find?_of_close? h]
  split <;> rfl

end Stepper.Debug.SessionStore
