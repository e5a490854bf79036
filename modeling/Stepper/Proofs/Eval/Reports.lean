/-
  What breakpoints report.

  While a program is evaluated, what a breakpoint reports is exact for the
  top-level form that has begun last (`exact_of_trace`).  The names in sight
  are the names of the bindings, each kept where it is bound innermost
  (`names_capture`).  So whoever lets values pass is told of each breakpoint
  where it stands and which names are in scope there (`reports_lexically`).
-/
import Mathlib.Algebra.Group.Nat.Defs
import Stepper.Proofs.Eval.Finality
import Stepper.Proofs.Eval.Lexical

namespace Stepper.Eval

open Stepper.Syntax (Form readForms)

/-! ## Programs -/

/-- The event is the beginning of a top-level form. -/
def Event.isStart : Event → Bool
  | .formStart => true
  | .hit .. => false

theorem passes_eval {root : Form} (narrow : root.Narrow (UInt32.size - 1)) {context : Context}
    (data : ∀ binding ∈ context.locals, binding.2.ClosureFree) (now : Moment) :
    (eval root .root now).Passes (Event.Exact root (context.locals.map (·.1))) context
      fun _ context' => context' = context := by
  have fits : Fits root (context.locals.map (·.1)) ⟨root, false, []⟩ .root root context :=
    ⟨at?_root root, .refl root, rfl, (List.append_nil _).symm, fun binding mem =>
      (data binding mem).mono fun _ _ _ _ none => none.elim⟩
  refine Action.Passes.bind (Action.passes_get ?_)
  exact (faithful_evalForm narrow _ now fits).mono fun _ _ _ returns => returns.1

/-- What a program asks: that its first form begins, what this form asks, and
    if it succeeds what the rest asks. -/
theorem trace_evalFormsFrom {now : Moment} {last : Value} {position : Nat} {form : Form}
    {forms : List Form} {context : Context} :
    ((evalFormsFrom now last position (form :: forms)).run.run context :
        Run (Result × Context)).trace =
      .formStart :: (((eval form .root (.form position :: now)).run.run context :
          Run (Result × Context)).trace ++
        match (eval form .root (.form position :: now)).outcome context with
        | (.ok value, context') =>
          ((evalFormsFrom now value (position + 1) forms).run.run context' :
            Run (Result × Context)).trace
        | (.error _, _) => []) := by
  have begins : (evalFormsFrom now last position (form :: forms)).run.run context =
      (Run.formStart (((eval form .root (.form position :: now) >>= fun value =>
        evalFormsFrom now value (position + 1) forms).run.run context)) : Run (Result × Context)) :=
    rfl
  rw [begins, Run.trace, Action.run_bind, Run.trace_bind, Action.outcome]
  cases (((eval form .root (.form position :: now)).run.run context :
    Run (Result × Context)).untouched false) with
  | mk result context' => cases result <;> rfl

/-- A hit while a program is evaluated belongs to the top-level form that has
    begun last. -/
theorem exact_of_trace {context : Context}
    (data : ∀ binding ∈ context.locals, binding.2.ClosureFree) {forms : List Form}
    (narrow : ∀ form ∈ forms, form.Narrow (UInt32.size - 1)) {now : Moment} {last : Value}
    {position : Nat} {before after : List Event} {site : Site} {value : Value}
    (trace : ((evalFormsFrom now last position forms).run.run context :
      Run (Result × Context)).trace = before ++ .hit site value :: after) :
    ∃ k root, before.countP Event.isStart = k + 1 ∧ forms[k]? = some root ∧
      Event.Exact root (context.locals.map (·.1)) (.hit site value) := by
  induction forms generalizing last position before with
  | nil => cases before <;> cases trace
  | cons form forms ih =>
    obtain ⟨asks, ends⟩ := passes_eval (narrow form List.mem_cons_self) data
      (.form position :: now)
    have silent : ∀ events : List Event, (∀ event ∈ events,
        Event.Exact form (context.locals.map (·.1)) event) → events.countP Event.isStart = 0 := by
      intro events exact
      rw [List.countP_eq_zero]
      intro event mem starts
      cases event with
      | formStart => exact exact _ mem
      | hit => cases starts
    rw [trace_evalFormsFrom] at trace
    cases before with
    | nil => cases trace
    | cons first before =>
      obtain ⟨rfl, parts⟩ := List.cons_eq_cons.1 trace
      -- the hit is one of the first form, or one of the forms after it
      have later : ∀ {rest : List Event},
          (match (eval form .root (.form position :: now)).outcome context with
            | (.ok value, context') => ((evalFormsFrom now value (position + 1) forms).run.run
                context' : Run (Result × Context)).trace
            | (.error _, _) => []) = rest ++ .hit site value :: after →
          ∃ k root, rest.countP Event.isStart = k + 1 ∧ forms[k]? = some root ∧
            Event.Exact root (context.locals.map (·.1)) (.hit site value) := by
        intro rest same
        split at same
        · rename_i value' context' outcome
          have restored : context' = context := by
            rw [Action.outcome] at outcome
            rw [outcome] at ends
            exact ends value' rfl
          subst restored
          exact ih (fun form mem => narrow form (List.mem_cons_of_mem _ mem)) same
        · cases rest <;> cases same
      rcases List.append_eq_append_iff.1 parts with ⟨rest, rfl, same⟩ | ⟨rest, own, same⟩
      · obtain ⟨k, root, count, found, exact⟩ := later same
        refine ⟨k + 1, root, ?_, found, exact⟩
        rw [List.countP_cons, List.countP_append, silent _ asks, count]
        simp [Event.isStart]
      · cases rest with
        | nil =>
          rw [List.append_nil] at own
          obtain ⟨k, root, count, found, exact⟩ := @later [] same.symm
          cases count
        | cons event rest =>
          obtain ⟨rfl, -⟩ := List.cons_eq_cons.1 same
          rw [own] at asks
          refine ⟨0, form, ?_, rfl, asks _ (List.mem_append_right _ List.mem_cons_self)⟩
          rw [List.countP_cons, silent before fun event mem =>
            asks event (List.mem_append_left _ mem)]
          rfl

/-- Whatever a handler that lets values pass is told about a breakpoint is exact:
    the coordinate leads to a tagged form in the top-level form that has begun
    last, the value is the one that the form under the tag has at that moment,
    and the names in sight are those from outside and those lexically in scope
    there, each kept where it is bound innermost. -/
theorem reports_lexically {σ : Type} {handler : Run.Handler σ} (passes : handler.LetsPass)
    {source : String} (small : source.utf8ByteSize < 2 ^ 32) {locals : List Binding}
    (data : ∀ binding ∈ locals, binding.2.ClosureFree) {now : Moment} {state : σ}
    {before after : List Event} {site : Site} {value : Value}
    (asked : ((evalSource now source).start locals).asked handler state =
      before ++ .hit site value :: after) :
    ∃ forms k root p inner room context, readForms source = .ok forms ∧
      before.countP Event.isStart = k + 1 ∧ forms[k]? = some root ∧
      at? root site.place = some p ∧ p.form.Strips (.tagged inner) ∧
      (evalForm room inner site.place site.moment).outcome context = (.ok value, context) ∧
      site.snapshot = .capture context.locals ∧
      context.locals.map (·.1) = locals.map (·.1) ++ p.names ∧
      site.snapshot.names = (locals.map (·.1) ++ p.names).dedup := by
  have shown : (((evalSource now source).start locals).asked handler state).IsPrefix
      ((evalSource now source).start locals).trace :=
    Run.Final.asked_isPrefix (final_evalSource now source ⟨locals, 0⟩) passes state
  obtain ⟨rest, whole⟩ := shown
  rw [asked, List.append_assoc, List.cons_append] at whole
  unfold evalSource at whole
  cases read : readForms source with
  | error e =>
    rw [read] at whole
    cases before <;> cases whole
  | ok forms =>
    rw [read] at whole
    have narrow : ∀ form ∈ forms, form.Narrow (UInt32.size - 1) := by
      intro form mem
      refine Syntax.narrow_of_readForms read (by decide) ?_ mem
      have size : UInt32.size = 2 ^ 32 := rfl
      omega
    have data' : ∀ binding ∈ (⟨locals, 0⟩ : Context).locals, binding.2.ClosureFree := data
    obtain ⟨k, root, count, found, exact⟩ := exact_of_trace data' narrow whole.symm
    obtain ⟨p, inner, room, context, here, strips, names, captured, outcome⟩ := exact
    refine ⟨forms, k, root, p, inner, room, context, rfl, count, found, here, strips, outcome,
      captured, names, ?_⟩
    rw [captured, names_capture, names]

/-- What a breakpoint shows of its place and the names in sight. -/
def Event.report? : Event → Option (List UInt32 × List String)
  | .formStart => none
  | .hit site _ => some (site.place.path, site.snapshot.names)

theorem Event.exists_of_report? {event : Event} {report : List UInt32 × List String}
    (h : event.report? = some report) : ∃ site value, event = .hit site value ∧
      site.place.path = report.1 ∧ site.snapshot.names = report.2 := by
  cases event with
  | formStart => cases h
  | hit site value =>
    cases h
    exact ⟨site, value, rfl, rfl, rfl⟩

/-- A function whose body is reported when it is called from outside. -/
def reporting : String := "(let [x 1 f (fn [y x] #break y)] (f x 2))"

theorem reports_lexically_in_closure :
    ∃ (site : Site) (value : Value) (root : Form) (p : Standing) (inner : Form),
      ((evalSource [] reporting).start [("z", .nil)]).asked Plan.pass.handler (.start false) =
        [.formStart, .hit site value] ∧
      site.place.path = [1, 3, 2] ∧ site.snapshot.names = ["z", "y", "x"] ∧
      at? root site.place = some p ∧ p.form.Strips (.tagged inner) ∧
      site.snapshot.names = ("z" :: p.names).dedup := by
  have data : ∀ binding ∈ [("z", Value.nil)], binding.2.ClosureFree := by
    intro binding mem
    rw [List.mem_singleton.1 mem]
    exact .nil
  have reports : (((evalSource [] reporting).start [("z", .nil)]).asked Plan.pass.handler
      (.start false)).map Event.report? = [none, some ([1, 3, 2], ["z", "y", "x"])] := by
    decide +kernel
  obtain ⟨first, rest, asked, starts, reports⟩ := List.map_eq_cons_iff.1 reports
  obtain ⟨second, rest, rfl, hits, last⟩ := List.map_eq_cons_iff.1 reports
  obtain ⟨site, value, rfl, place, names⟩ := Event.exists_of_report? hits
  have begins : first = .formStart := by
    cases first with
    | formStart => rfl
    | hit => cases starts
  rw [begins, List.map_eq_nil_iff.1 last] at asked
  have passes : Plan.pass.handler.LetsPass := fun _ _ _ => rfl
  have split : [Event.formStart, .hit site value] = [.formStart] ++ .hit site value :: [] := rfl
  obtain ⟨-, -, root, p, inner, -, -, -, -, -, here, strips, -, -, -, exact⟩ :=
    reports_lexically passes (by decide) data (asked.trans split)
  exact ⟨site, value, root, p, inner, asked, place, names, here, strips, exact⟩

end Stepper.Eval
