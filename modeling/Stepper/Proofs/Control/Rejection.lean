/-
  Requests that are rejected.

  Whether a line is rejected depends on the line alone: it is when it means
  nothing (`rejects_iff`).  Then nothing else happens, and a history is what it
  would be if the line had not come (`history_filter`).
-/
import Stepper.Proofs.Control.Books
import Stepper.Proofs.Control.Requests

namespace Stepper.Control

variable {line : String} {id : Nat} {operation : Operation}

/-! ## Lines that mean nothing -/

theorem operation?_eq_some_iff :
    operation? line = some (id, operation) ↔ Means line id operation := by
  constructor
  · intro asked
    unfold operation? at asked
    split at asked
    · rename_i request read
      split at asked
      · rename_i known
        cases asked
        exact ⟨request, Request.ofLine_eq_ok_iff.1 read, rfl,
          Operation.ofRequest?_eq_ok_iff.1 known⟩
      · cases asked
    · cases asked
  · rintro ⟨request, reads, rfl, asks⟩
    simp only [operation?, Request.ofLine_eq_ok_iff.2 reads, Operation.ofRequest?_eq_ok_iff.2 asks]

theorem operation?_eq_none_iff :
    operation? line = none ↔ ∀ id operation, ¬ Means line id operation := by
  rw [Option.eq_none_iff_forall_ne_some]
  constructor
  · exact fun nothing id operation means => nothing _ (operation?_eq_some_iff.2 means)
  · exact fun nothing asked same => nothing asked.1 asked.2 (operation?_eq_some_iff.1 same)

namespace Server

variable {s : Server} {connection : Nat}

/-- The line is answered at once, with an error. -/
def Rejects (s : Server) (connection : Nat) (line : String) : Prop :=
  (s.handle connection line).1.map Response.status = some ["error", "done"]

instance : Decidable (s.Rejects connection line) := inferInstanceAs (Decidable (_ = _))

/-- An operation that is carried out is answered with success, if it is at once. -/
theorem perform_status (s : Server) (connection id : Nat) (operation : Operation) :
    (s.perform .granted connection id operation).1.response?.map Response.status ∈
      [none, some ["done"]] := by
  cases operation with
  | attach force =>
    simp only [perform]
    cases (s.debugger.attach ⟨connection, id⟩ force).1 with
    | attached | replaced => exact .head _
    | kept => exact .tail _ (.head _)
  | evaluate session code =>
    simp only [perform]
    cases spawned : Host.Threads.granted.spawn (threadName session) with
    | started | died => exact .head _
    | refused reason => cases (Host.Threads.spawn_eq_refused_iff.1 spawned).2
  | reply | close | sessions => exact .tail _ (.head _)

/-- A line that means nothing leaves everything as it is. -/
theorem take_snd_of_operation?_eq_none (s : Server) (threads : Host.Threads) (connection : Nat)
    (nothing : operation? line = none) : (s.take threads connection line).2 = s := by
  have rejected : ∃ reason,
      s.take threads connection line = (.respond (.rejected (idOf line) reason), s) :=
    take_of_operation?_eq_none nothing
  obtain ⟨reason, taken⟩ := rejected
  rw [taken]

/-- Whatever the server is doing, it rejects the lines that mean nothing. -/
theorem rejects_iff : s.Rejects connection line ↔ ∀ id operation, ¬ Means line id operation := by
  rw [← operation?_eq_none_iff, Rejects, handle]
  constructor
  · intro rejected
    cases asked : operation? line with
    | none => rfl
    | some known =>
      obtain ⟨id, operation⟩ := known
      have status := s.perform_status connection id operation
      rw [← (take_of_operation?_eq_some asked).1, rejected] at status
      exact absurd status (by decide)
  · intro nothing
    have rejected : ∃ reason,
        s.take .granted connection line = (.respond (.rejected (idOf line) reason), s) :=
      take_of_operation?_eq_none nothing
    obtain ⟨reason, taken⟩ := rejected
    rw [taken]
    rfl

/-- A line that is rejected asks for nothing and changes nothing: no session,
    policy, evaluation, key or attachment, and no message is sent. -/
theorem unchanged_of_rejects (rejected : s.Rejects connection line) :
    (∀ id operation, ¬ Means line id operation) ∧ (s.handle connection line).2 = s := by
  have nothing := rejects_iff.1 rejected
  exact ⟨nothing,
    take_snd_of_operation?_eq_none s .granted connection (operation?_eq_none_iff.2 nothing)⟩

/-- While an evaluation waits at a breakpoint and the reply to its prompt is
    recorded, another client asks to be attached, but `force` is a number. -/
theorem unchanged_by_numeric_force :
    let s := (Server.new .default).run ([.line 1 "[1,\"attach-debugger\",[]]",
      .line 1 "[2,\"eval\",[\"a\",\"#break 1\"]]"] ++ List.replicate 7 (.advance 0) ++
      [.line 1 "[3,\"submit-debug-reply\",[\"input-1\",\"next\"]]"])
    let line := "\x7b\"id\":3,\"type\":\"attach-debugger\",\"params\":\x7b\"force\":1\x7d\x7d"
    s.Rejects 2 line ∧ (∀ id operation, ¬ Means line id operation) ∧ (s.handle 2 line).2 = s :=
  have rejected : Rejects _ 2 _ := by decide +kernel
  ⟨rejected, unchanged_of_rejects rejected⟩

end Server

/-! ## Runs without the lines that are rejected -/

/-- The move is a line that is rejected. -/
def Move.void : Move → Bool
  | .line _ text _ => (operation? text).isNone
  | _ => false

namespace Server

variable {m : Move}

theorem void_line_iff (s : Server) (connection : Nat) (threads : Host.Threads) :
    (Move.line connection line threads).void = true ↔ s.Rejects connection line := by
  rw [Move.void, Option.isNone_iff_eq_none, operation?_eq_none_iff, rejects_iff]

theorem act_of_void (s : Server) (void : m.void = true) : s.act m = s := by
  cases m with
  | line connection text threads =>
    exact take_snd_of_operation?_eq_none s threads connection (Option.isNone_iff_eq_none.1 void)
  | connect | release | setRefusing | advance | expire => cases void

/-- In a history without the lines that are rejected every other move finds the
    same server, and so everything else is answered as before. -/
theorem history_filter (s : Server) (moves : List Move) :
    s.history (moves.filter (!·.void)) = (s.history moves).filter (!·.move.void) := by
  induction moves generalizing s with
  | nil => rfl
  | cons m moves ih =>
    rw [history, List.filter_cons, List.filter_cons]
    cases void : m.void with
    | true =>
      rw [act_of_void s void]
      exact ih s
    | false => exact congrArg (_ :: ·) (ih (s.act m))

theorem run_filter (s : Server) (moves : List Move) :
    s.run (moves.filter (!·.void)) = s.run moves := by
  induction moves generalizing s with
  | nil => rfl
  | cons m moves ih =>
    rw [List.filter_cons]
    cases void : m.void with
    | true => exact (ih s).trans (congrArg (run · moves) (act_of_void s void).symm)
    | false => exact ih (s.act m)

end Server

end Stepper.Control
