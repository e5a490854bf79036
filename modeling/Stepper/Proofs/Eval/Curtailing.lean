/-
  Runs that are cut short.

  A run curtails another one when both ask the same in the same order until
  the first one is `spent`; if it never is, both end as `post` says.  So
  whoever answers them sees them do the same, or the first one asks a first
  part of what the second one asks (`Curtails.under`).

  An evaluation that begins at a greater depth curtails the same evaluation at
  a smaller one (`curtails_evalForm`).  So the limit of the depth decides only
  whether there is an answer, not which one (`depth_changes_no_answer`).
-/
import Stepper.Proofs.Eval.Calls
import Stepper.Proofs.Eval.Tracking

namespace Stepper.Eval

open Stepper.Syntax (Form)

variable {α β γ δ σ : Type}

/-- Both runs ask the same until both end as `post` says or the first one is
    `spent`. -/
inductive Run.Curtails (spent : α → Prop) (post : α → β → Prop) : Run α → Run β → Prop
  | done {a b} (h : post a b) : Curtails spent post (.done a) (.done b)
  | stop {a r'} (h : spent a) : Curtails spent post (.done a) r'
  | poll {next next'} (h : ∀ tripped, Curtails spent post (next tripped) (next' tripped)) :
    Curtails spent post (.poll next) (.poll next')
  | formStart {next next'} (h : Curtails spent post next next') :
    Curtails spent post (.formStart next) (.formStart next')
  | hit {site value next next'} (h : ∀ answer, Curtails spent post (next answer) (next' answer)) :
    Curtails spent post (.hit site value next) (.hit site value next')

namespace Run

variable {spent : α → Prop} {post : α → β → Prop} {r : Run α} {r' : Run β}

theorem Curtails.bind {spent' : γ → Prop} {post' : γ → δ → Prop} {f : α → Run γ} {f' : β → Run δ}
    (h : r.Curtails spent post r') (ends : ∀ a, spent a → ∃ c, f a = .done c ∧ spent' c)
    (rest : ∀ a b, post a b → (f a).Curtails spent' post' (f' b)) :
    (r.bind f).Curtails spent' post' (r'.bind f') := by
  induction h with
  | done h => exact rest _ _ h
  | stop h =>
    obtain ⟨c, same, stopped⟩ := ends _ h
    rw [Run.bind, same]
    exact .stop stopped
  | poll _ ih => exact .poll ih
  | formStart _ ih => exact .formStart ih
  | hit _ ih => exact .hit ih

/-- Whoever answers sees the first run spent, after a first part of the
    questions of the second one, or both do the same and end as `post` says. -/
theorem Curtails.under (h : r.Curtails spent post r') (handler : Handler σ) (s : σ) :
    spent (r.under handler s).1 ∧ r.calls handler s <+: r'.calls handler s ∨
      post (r.under handler s).1 (r'.under handler s).1 ∧
        (r.under handler s).2 = (r'.under handler s).2 ∧
        r.calls handler s = r'.calls handler s := by
  induction h generalizing s with
  | done h => exact .inr ⟨h, rfl, rfl⟩
  | stop h => exact .inl ⟨h, List.nil_prefix⟩
  | poll _ ih =>
    simp only [Run.under, calls, List.prefix_cons_inj, List.cons.injEq, true_and]
    exact ih _ _
  | formStart _ ih =>
    simp only [Run.under, calls, List.prefix_cons_inj, List.cons.injEq, true_and]
    exact ih _
  | hit _ ih =>
    simp only [Run.under, calls, List.prefix_cons_inj, List.cons.injEq, true_and]
    exact ih _ _

end Run

/-! ## Actions -/

/-- In their contexts the first action curtails the second one when it fails
    with the error `stop`. -/
def Action.Curtails (stop : Error) (context context' : Context) (body : Action α)
    (body' : Action β) (post : α → Context → β → Context → Prop) : Prop :=
  (body.run.run context : Run (Except Error α × Context)).Curtails
    (fun r => r.1 = .error stop) (Ends post)
    (body'.run.run context' : Run (Except Error β × Context))

namespace Action

variable {stop : Error} {context context' : Context} {body : Action α} {body' : Action β}
  {post : α → Context → β → Context → Prop} {f : α → Action γ} {f' : β → Action δ}

theorem curtails_pure {a : α} {b : β} (h : post a context b context') :
    Curtails stop context context' (pure a) (pure b) post :=
  .done (.ok h)

theorem curtails_throw (e : Error) : Curtails stop context context' (throw e) (throw e) post :=
  .done (.error e _ _)

theorem curtails_stop : Curtails stop context context' (throw stop) body' post := .stop rfl

theorem Curtails.mono {post' : α → Context → β → Context → Prop}
    (h : Curtails stop context context' body body' post)
    (weaker : ∀ a c b c', post a c b c' → post' a c b c') :
    Curtails stop context context' body body' post' := by
  unfold Curtails at h ⊢
  rw [← Run.bind_done (body.run.run context), ← Run.bind_done (body'.run.run context')]
  refine h.bind (fun r stopped => ⟨r, rfl, stopped⟩) fun a b ended => ?_
  cases ended with
  | ok h => exact .done (.ok (weaker _ _ _ _ h))
  | error e => exact .done (.error e _ _)

theorem Curtails.bind {post' : γ → Context → δ → Context → Prop}
    (h : Curtails stop context context' body body' fun a c b c' =>
      Curtails stop c c' (f a) (f' b) post') :
    Curtails stop context context' (body >>= f) (body' >>= f') post' := by
  unfold Curtails
  rw [run_bind, run_bind]
  refine Run.Curtails.bind h ?_ ?_
  · rintro ⟨result, c⟩ rfl
    exact ⟨_, rfl, rfl⟩
  · rintro _ _ (continues | e)
    · exact continues
    · exact .done (.error e _ _)

theorem curtails_get {post : Context → Context → Context → Context → Prop}
    (h : post context context context' context') :
    Curtails stop context context' (get : Action Context) (get : Action Context) post :=
  .done (.ok h)

theorem curtails_modify {g g' : Context → Context} {post : Unit → Context → Unit → Context → Prop}
    (h : post () (g context) () (g' context')) :
    Curtails stop context context' (modify g : Action Unit) (modify g' : Action Unit) post :=
  .done (.ok h)

theorem curtails_checkpoint {post : Unit → Context → Unit → Context → Prop}
    (h : post () context () context') : Curtails stop context context' checkpoint checkpoint post :=
  .poll fun tripped => match tripped with
    | false => .done (.ok h)
    | true => .done (.error .cancelled _ _)

theorem curtails_breakpoint {place : Coordinate} {now : Moment} {value : Value}
    {post : Value → Context → Value → Context → Prop} (same : context.locals = context'.locals)
    (h : ∀ answer, post answer context answer context') :
    Curtails stop context context' (breakpoint place now value) (breakpoint place now value)
      post := by
  obtain ⟨locals, depth⟩ := context
  obtain ⟨locals', depth'⟩ := context'
  cases same
  refine .hit fun answer => ?_
  cases answer with
  | ok v => exact .done (.ok (h v))
  | error e => exact .done (.error e _ _)

theorem Curtails.thenRestore {restore restore' : Context → Context}
    (h : Curtails stop context context' body body' fun a c b c' =>
      post a (restore c) b (restore' c')) :
    Curtails stop context context' (body.thenRestore restore) (body'.thenRestore restore')
      post := by
  unfold Curtails
  rw [run_thenRestore, run_thenRestore]
  refine Run.Curtails.bind h ?_ ?_
  · rintro ⟨result, c⟩ rfl
    exact ⟨_, rfl, rfl⟩
  · rintro _ _ (holds | e)
    · exact .done (.ok holds)
    · exact .done (.error e _ _)

theorem compositional₂_curtails (stop : Error) : Compositional₂ (· = ·) (Curtails stop) where
  pure := curtails_pure
  throw := by
    rintro _ _ _ _ e _ _ rfl
    exact curtails_throw e
  mono := Curtails.mono
  bind := Curtails.bind
  get := curtails_get
  modify := curtails_modify
  checkpoint := curtails_checkpoint
  thenRestore := Curtails.thenRestore

end Action

/-! ## The same form -/

/-- Everything goes with itself only. -/
def Correspondence.identical : Correspondence := ⟨fun _ => Eq, Eq, Eq, Eq⟩

namespace Correspondence

variable {place : Coordinate} {position : Nat} {forms forms' : List Form}

theorem rows_identical (forms : List Form) : identical.Rows place position forms forms := by
  induction forms generalizing position with
  | nil => exact .nil
  | cons form forms ih => exact .cons rfl ih

theorem eq_of_rows_identical (h : identical.Rows place position forms forms') : forms = forms' := by
  induction h with
  | nil => rfl
  | cons first _ ih => rw [show _ = _ from first, ih]

theorem pairs_identical : ∀ (position : Nat) (pairs : List Form),
    identical.Pairs place position pairs pairs
  | _, [] => .nil
  | _, [form] => .single form form
  | position, _ :: _ :: rest => .pair rfl rfl (pairs_identical (position + 2) rest)

theorem operands_identical (special : Option Special) (operands : List Form) :
    identical.Operands place special operands operands := by
  match special with
  | none | some .body | some .branch => exact rows_identical operands
  | some .quote => rfl
  | some .binding =>
    refine ⟨?_, rows_identical operands.tail⟩
    cases operands.head?.bind Form.vector? with
    | none => exact .none
    | some pairs => exact .some (pairs_identical 0 pairs)
  | some .function =>
    refine ⟨?_, rows_identical operands.tail⟩
    cases operands.head?.bind Form.vector? with
    | none => exact .none
    | some params => exact .some (List.forall₂_same.2 fun _ _ => rfl)

theorem lawful_identical : identical.Lawful where
  values := by
    constructor
    case outline =>
      rintro v _ rfl
      cases v with
      | nil => exact .nil
      | bool b => exact .bool b
      | int n => exact .int n
      | float x => exact .float x
      | str s => exact .str s
      | symbol name => exact .symbol name
      | list items => exact .list (List.forall₂_same.2 fun _ _ => rfl)
      | vector items => exact .vector (List.forall₂_same.2 fun _ _ => rfl)
      | builtin f => exact .builtin f
      | closure => exact .closure _ _ _ _ _ _ _
    case list | vector =>
      intro items items' each
      rw [show items = items' by simpa [identical, List.forall₂_eq_eq_eq] using each]
      rfl
    all_goals intros; rfl
  lookup := by
    rintro locals _ rfl name
    cases lookup? name locals with
    | none => exact .none
    | some value => exact .some rfl
  push := by
    rintro locals _ value _ name rfl rfl
    rfl
  function := by
    rintro id params body body' captured _ place rows rfl
    rw [eq_of_rows_identical rows]
    rfl
  callee := by
    intro id params body body' captured captured' place same
    cases same
    exact ⟨rows_identical body, rfl⟩
  error _ := rfl

/-- A form that is under no tag goes with itself because its parts do. -/
theorem layer_identical {form : Form} (untagged : ∀ inner, form ≠ .tagged inner) :
    identical.Layer place form form := by
  cases form with
  | nil => exact .nil
  | bool b => exact .bool b
  | int n => exact .int n
  | float x => exact .float x
  | str s => exact .str s
  | symbol name => exact .symbol name
  | vector items => exact .vector (rows_identical items)
  | tagged inner => exact absurd rfl (untagged inner)
  | list items =>
    cases items with
    | nil => exact .empty
    | cons head operands =>
      refine .list rfl (fun _ => ⟨rfl, ?_⟩) (operands_identical _ operands)
      rintro callee _ rfl
      rfl

end Correspondence

/-- Evaluators of which the first one curtails the second one, for all forms
    and in contexts with the same bindings. -/
def Shortens (stop : Error) (ev ev' : Inner) : Prop :=
  Correspondence.identical.Carries (Action.Curtails stop) ev ev'

variable {stop : Error} {context context' : Context}

theorem curtails_evalInner {ev ev' : Inner} (inner : Shortens stop ev ev') (form : Form)
    (place : Coordinate) (now : Moment) (locals : context.locals = context'.locals) :
    Action.Curtails stop context context' (evalInner ev form place now)
      (evalInner ev' form place now) (Correspondence.identical.Returns context context') := by
  by_cases tagged : ∃ inner, form = .tagged inner
  · obtain ⟨form, rfl⟩ := tagged
    refine Action.Curtails.bind ((inner place now rfl locals).mono ?_)
    rintro value c _ c' ⟨rfl, rfl, rfl⟩
    exact Action.curtails_breakpoint locals fun answer => ⟨rfl, rfl, rfl⟩
  · have untagged : ∀ inner, form ≠ .tagged inner := by simpa using tagged
    exact Correspondence.lawful_identical.evalInner (Action.compositional₂_curtails stop) inner
      (Correspondence.layer_identical untagged) locals

theorem Shortens.nested {body body' : Action Value}
    (h : ∀ {context context'}, context.locals = context'.locals →
      Action.Curtails stop context context' body body'
        (Correspondence.identical.Returns context context'))
    (locals : context.locals = context'.locals) :
    Action.Curtails stop context context' body.nested body'.nested
      (Correspondence.identical.Returns context context') := by
  have deeper : { context with depth := context.depth + 1 }.locals =
      { context' with depth := context'.depth + 1 }.locals := locals
  refine (Action.compositional₂_curtails stop).nested ((h deeper).mono ?_)
  rintro value c value' c' ⟨rfl, rfl, same⟩
  exact ⟨rfl, rfl, same⟩

/-! ## Less room -/

/-- With less room an evaluation may come to the limit, and until then does the
    same. -/
theorem curtails_evalForm {room room' : Nat} (le : room ≤ room') :
    Shortens (.depthExceeded maxDepth) (evalForm room) (evalForm room') := by
  induction room generalizing room' with
  | zero => exact fun _ _ _ _ => Action.curtails_stop
  | succ room ih =>
    rintro form _ context context' place now rfl locals
    obtain ⟨room', rfl⟩ : ∃ k, room' = k + 1 := ⟨room' - 1, by omega⟩
    exact Shortens.nested (curtails_evalInner (ih (Nat.le_of_succ_le_succ le)) form place now)
      locals

theorem curtails_eval (form : Form) (place : Coordinate) (now : Moment)
    (locals : context.locals = context'.locals) (depths : context'.depth ≤ context.depth) :
    Action.Curtails (.depthExceeded maxDepth) context context' (eval form place now)
      (eval form place now) (Correspondence.identical.Returns context context') :=
  Action.Curtails.bind (Action.curtails_get
    (curtails_evalForm (Nat.sub_le_sub_left depths maxDepth) place now rfl locals))

/-- The evaluation of a form that begins at a depth. -/
def evalFrom (depth : Nat) (locals : List Binding) (form : Form) (place : Coordinate)
    (now : Moment) : Run (Result × Context) :=
  (eval form place now).run.run ⟨locals, depth⟩

/-- The limit of the depth never changes an answer.  An evaluation that does not
    come to the limit gives the same result from a smaller depth on, and asks
    the same questions; one that does has asked a first part of them. -/
theorem depth_changes_no_answer {depth depth' : Nat} (le : depth ≤ depth')
    (handler : Run.Handler σ) (s : σ) (form : Form) (place : Coordinate) (now : Moment)
    (locals : List Binding) :
    (((evalFrom depth' locals form place now).under handler s).1.1 ≠
        .error (.depthExceeded maxDepth) →
      ((evalFrom depth locals form place now).under handler s).1.1 =
          ((evalFrom depth' locals form place now).under handler s).1.1 ∧
        (evalFrom depth locals form place now).calls handler s =
          (evalFrom depth' locals form place now).calls handler s) ∧
    (((evalFrom depth' locals form place now).under handler s).1.1 =
        .error (.depthExceeded maxDepth) →
      (evalFrom depth' locals form place now).calls handler s <+:
        (evalFrom depth locals form place now).calls handler s) := by
  have curtailed : (evalFrom depth' locals form place now).Curtails
      (fun r => r.1 = .error (.depthExceeded maxDepth))
      (Ends (Correspondence.identical.Returns ⟨locals, depth'⟩ ⟨locals, depth⟩))
      (evalFrom depth locals form place now) := curtails_eval form place now rfl le
  rcases curtailed.under handler s with ⟨stopped, first⟩ | ⟨ends, -, same⟩
  · exact ⟨fun other => absurd stopped other, fun _ => first⟩
  · refine ⟨fun _ => ⟨?_, same.symm⟩, fun _ => same ▸ List.prefix_rfl⟩
    generalize (evalFrom depth' locals form place now).under handler s = ended' at ends
    generalize (evalFrom depth locals form place now).under handler s = ended at ends
    obtain ⟨⟨result', context'⟩, s'⟩ := ended'
    obtain ⟨⟨result, context⟩, s⟩ := ended
    cases ends with
    | ok returns => exact congrArg Except.ok returns.2.2.symm
    | error e => rfl

/-- A vector with a tagged item needs three levels. -/
theorem depth_changes_no_answer_in_vector :
    (((evalFrom 0 [] (.vector [.tagged (.int 7)]) .root []).under Plan.pass.handler
        (.start false)).1.1 = .ok (.vector [.int 7]) ∧
      (evalFrom 0 [] (.vector [.tagged (.int 7)]) .root []).calls Plan.pass.handler (.start false) =
        [.poll false, .hit ⟨⟨[0]⟩, [.item 0], ⟨[]⟩⟩ (.int 7) (.ok (.int 7))]) ∧
    (evalFrom 510 [] (.vector [.tagged (.int 7)]) .root []).calls Plan.pass.handler
        (.start false) <+:
      (evalFrom 0 [] (.vector [.tagged (.int 7)]) .root []).calls Plan.pass.handler
        (.start false) := by
  obtain ⟨reached, -⟩ := depth_changes_no_answer (show 0 ≤ 509 by decide) Plan.pass.handler
    (.start false) (.vector [.tagged (.int 7)]) .root [] []
  obtain ⟨-, exceeded⟩ := depth_changes_no_answer (show 0 ≤ 510 by decide) Plan.pass.handler
    (.start false) (.vector [.tagged (.int 7)]) .root [] []
  exact ⟨reached (fun failed => nomatch failed), exceeded rfl⟩

end Stepper.Eval
