/-
  Questions and answers.

  `Run.calls` lists what a handler is asked in a run, together with its
  answers.  A run has nothing else to go by: who answers as another one did is
  asked what the other one was asked (`calls_of_echoes`).  A breakpoint that is
  answered with an error is the last thing that is asked, and the error is the
  result (`failing_hit_final`).
-/
import Stepper.Proofs.Eval.Finality

namespace Stepper.Eval

open Stepper.Syntax (Form)

variable {α σ τ : Type}

/-- A question of a run and the answer. -/
inductive Call where
  /-- Whether it has been cancelled. -/
  | poll (tripped : Bool)
  | formStart
  | hit (site : Site) (value : Value) (answer : Result)

/-- What the handler is told of with the question. -/
def Call.event? : Call → Option Event
  | poll _ => none
  | formStart => some .formStart
  | hit site value _ => some (.hit site value)

namespace Run

/-- The questions of a run and the answers of a handler, in order. -/
def calls (handler : Handler σ) : Run α → σ → List Call
  | done _, _ => []
  | poll next, s =>
    .poll (handler.tripped s).1 :: (next (handler.tripped s).1).calls handler (handler.tripped s).2
  | formStart next, s => .formStart :: next.calls handler (handler.formStart s)
  | hit site value next, s =>
    .hit site value (handler.breakpoint site value s).1 ::
      (next (handler.breakpoint site value s).1).calls handler (handler.breakpoint site value s).2

theorem asked_eq_filterMap_calls (handler : Handler σ) (r : Run α) (s : σ) :
    r.asked handler s = (r.calls handler s).filterMap Call.event? := by
  induction r generalizing s with
  | done a => rfl
  | poll next ih => exact ih _ _
  | formStart next ih => exact congrArg (.formStart :: ·) (ih _)
  | hit site value next ih => exact congrArg (.hit site value :: ·) (ih _ _)

/-- Whenever all has been the same so far and the handler is asked the same, it
    gives the answer that is in the list. -/
def Echoes (handler : Handler σ) (r : Run α) (s : σ) (calls : List Call) : Prop :=
  ∀ before call call' after after', calls = before ++ call :: after →
    r.calls handler s = before ++ call' :: after' → call'.event? = call.event? → call' = call

variable {handler : Handler σ} {handler' : Handler τ}

/-- A list of calls that begins with `first` goes on as the rest of the run does. -/
theorem Echoes.tail {r rest : Run α} {s s' : σ} {first : Call} {calls : List Call}
    (h : Echoes handler r s (first :: calls))
    (begins : r.calls handler s = first :: rest.calls handler s') :
    Echoes handler rest s' calls := by
  rintro before call call' after after' rfl further same
  refine h (first :: before) call call' after after' rfl ?_ same
  rw [begins, further, List.cons_append]

/-- What a run asks next depends on the answers so far. -/
theorem calls_of_echoes {r : Run α} {s : σ} {s' : τ} {before after : List Call} {call : Call}
    (h : r.calls handler s = before ++ call :: after) (echoes : Echoes handler' r s' before) :
    ∃ call' after', r.calls handler' s' = before ++ call' :: after' ∧
      call'.event? = call.event? := by
  induction r generalizing before s s' with
  | done a => cases before <;> cases h
  | poll next ih =>
    cases before with
    | nil =>
      cases h
      exact ⟨_, _, rfl, rfl⟩
    | cons first before =>
      obtain ⟨rfl, rest⟩ := List.cons_eq_cons.1 h
      have same : Call.poll (handler'.tripped s').1 = .poll (handler.tripped s).1 :=
        echoes [] _ _ _ _ rfl rfl rfl
      have begins : (poll next).calls handler' s' = .poll (handler.tripped s).1 ::
          (next (handler.tripped s).1).calls handler' (handler'.tripped s').2 := by
        rw [calls, Call.poll.inj same]
      obtain ⟨call', after', further, asks⟩ := ih _ rest (echoes.tail begins)
      exact ⟨call', after', by rw [begins, further, List.cons_append], asks⟩
  | formStart next ih =>
    cases before with
    | nil =>
      cases h
      exact ⟨_, _, rfl, rfl⟩
    | cons first before =>
      obtain ⟨rfl, rest⟩ := List.cons_eq_cons.1 h
      obtain ⟨call', after', further, asks⟩ := ih rest (echoes.tail rfl)
      exact ⟨call', after', by rw [calls, further, List.cons_append], asks⟩
  | hit site value next ih =>
    cases before with
    | nil =>
      cases h
      exact ⟨_, _, rfl, rfl⟩
    | cons first before =>
      obtain ⟨rfl, rest⟩ := List.cons_eq_cons.1 h
      have same : Call.hit site value (handler'.breakpoint site value s').1 =
          .hit site value (handler.breakpoint site value s).1 :=
        echoes [] _ _ _ _ rfl rfl rfl
      have begins : (hit site value next).calls handler' s' =
          .hit site value (handler.breakpoint site value s).1 ::
            (next (handler.breakpoint site value s).1).calls handler'
              (handler'.breakpoint site value s').2 := by
        rw [calls, (Call.hit.inj same).2.2]
      obtain ⟨call', after', further, asks⟩ := ih _ rest (echoes.tail begins)
      exact ⟨call', after', by rw [begins, further, List.cons_append], asks⟩

theorem echoes_of_isPrefix {r : Run α} {s : σ} {calls : List Call}
    (h : calls <+: r.calls handler s) : Echoes handler r s calls := by
  obtain ⟨rest, whole⟩ := h
  rintro before call call' after after' rfl further -
  rw [further, List.append_assoc, List.cons_append, List.append_cancel_left_eq] at whole
  exact (List.cons_eq_cons.1 whole).1.symm

/-- After an error at a breakpoint nothing is asked any more. -/
theorem Final.of_failing_hit {ends : Error → α → Prop} {r : Run α} (final : r.Final ends) {s : σ}
    {before after : List Call} {site : Site} {value : Value} {e : Error}
    (h : r.calls handler s = before ++ .hit site value (.error e) :: after) :
    after = [] ∧ ends e (r.under handler s).1 := by
  induction r generalizing before s with
  | done a => cases before <;> cases h
  | poll next ih =>
    cases before with
    | nil => cases h
    | cons first before =>
      obtain ⟨-, rest⟩ := List.cons_eq_cons.1 h
      simp only [under]
      cases tripped : (handler.tripped s).1 with
      | false =>
        rw [tripped] at rest
        exact ih false final.2 rest
      | true =>
        -- it has been cancelled, and asks nothing more
        obtain ⟨a, ended, -⟩ := final.1
        rw [tripped, ended] at rest
        cases before <;> cases rest
  | formStart next ih =>
    cases before with
    | nil => cases h
    | cons first before => exact ih final (List.cons_eq_cons.1 h).2
  | hit site' value' next ih =>
    simp only [under]
    cases before with
    | nil =>
      obtain ⟨same, rest⟩ := List.cons_eq_cons.1 h
      have failed : (handler.breakpoint site' value' s).1 = .error e := (Call.hit.inj same).2.2
      obtain ⟨a, ended, result⟩ := final.1 e
      rw [failed, ended] at rest ⊢
      exact ⟨rest.symm, result⟩
    | cons first before =>
      obtain ⟨-, rest⟩ := List.cons_eq_cons.1 h
      cases answer : (handler.breakpoint site' value' s).1 with
      | ok v =>
        rw [answer] at rest
        exact ih (.ok v) (final.2 v) rest
      | error e' =>
        obtain ⟨a, ended, -⟩ := final.1 e'
        rw [answer, ended] at rest
        cases before <;> cases rest

end Run

/-- A breakpoint that fails is final.  Whatever error the handler gives there is
    the result of the program, and it is asked nothing more; and any other
    handler, as long as it gives the same answers, is asked the same up to that
    breakpoint. -/
theorem failing_hit_final (handler : Run.Handler σ) (s : σ) (now : Moment) (forms : List Form)
    (locals : List Binding) {before after : List Call} {site : Site} {value : Value} {e : Error}
    (fails : ((evalForms now forms).start locals).calls handler s =
      before ++ .hit site value (.error e) :: after) :
    after = [] ∧ (((evalForms now forms).start locals).under handler s).1.1 = .error e ∧
      ∀ {τ : Type} (handler' : Run.Handler τ) (s' : τ),
        Run.Echoes handler' ((evalForms now forms).start locals) s' before →
        ∃ answer after', ((evalForms now forms).start locals).calls handler' s' =
          before ++ .hit site value answer :: after' := by
  have final : ((evalForms now forms).start locals).Final fun e r => r.1 = .error e :=
    Action.compositional_final.evalForms now forms ⟨locals, 0⟩
  obtain ⟨last, result⟩ := final.of_failing_hit fails
  refine ⟨last, result, fun handler' s' echoes => ?_⟩
  obtain ⟨call, after', asked, same⟩ := Run.calls_of_echoes fails echoes
  cases call with
  | poll | formStart => cases same
  | hit site' value' answer =>
    cases same
    exact ⟨answer, after', asked⟩

/-- A call of a function with a tag in its body and one at the argument. -/
def failing : List Form :=
  [.list [.list [.symbol "fn", .vector [.symbol "x"], .tagged (.symbol "x")], .tagged (.int 1)],
    .tagged (.int 2)]

/-- The calls before the second breakpoint. -/
def failing_before : List Call :=
  [.formStart, .poll false, .poll false,
    .hit ⟨⟨[1]⟩, [.item 1, .form 0], ⟨[]⟩⟩ (.int 1) (.ok (.int 1))]

theorem failing_hit_final_in_call :
    (((evalForms [] failing).start []).under (Plan.handler ⟨none, some 2, []⟩) (.start false)).1.1 =
        .error (.control "hook failed") ∧
      ∃ answer after, ((evalForms [] failing).start []).calls Plan.pass.handler (.start false) =
        failing_before ++
          .hit ⟨⟨[0, 2]⟩, [.body 0, .form 0], ⟨[("x", .int 1)]⟩⟩ (.int 1) answer :: after := by
  have fails : ((evalForms [] failing).start []).calls (Plan.handler ⟨none, some 2, []⟩)
      (.start false) = failing_before ++ .hit ⟨⟨[0, 2]⟩, [.body 0, .form 0], ⟨[("x", .int 1)]⟩⟩
        (.int 1) (.error (.control "hook failed")) :: [] := rfl
  obtain ⟨-, result, others⟩ := failing_hit_final _ _ _ _ _ fails
  exact ⟨result, others _ _ (Run.echoes_of_isPrefix ⟨_, rfl⟩)⟩

end Stepper.Eval
