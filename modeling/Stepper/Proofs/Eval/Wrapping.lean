/-
  How deep values are nested.

  Where a list or a vector is evaluated, a value may be wrapped once more, and
  nowhere else.  So without initial bindings, and without anyone who changes
  values, a value is at most as many levels deeper than what the reader
  accepts as lists and vectors have been evaluated (`depth_le_of_evaluated`).

  The limit of the depth of evaluations is no bound: bindings of one `let` wrap
  a value any number of times (`evaluates_rewrapping`), also beyond both limits
  together (`deeper_than_limits`).
-/
import Stepper.Proofs.Eval.Nesting
import Stepper.Proofs.Syntax.Printing

namespace Stepper.Eval

open Stepper.Syntax (Form maxNesting readForms readForms_of_readForm readForm_of_shallow IsName
  IsSymbol)

variable {σ : Type}

namespace Value

mutual
/-- How deep values are nested in the value: what has no items counts one, and
    lists and vectors add one. -/
def depth : Value → Nat
  | .list items | .vector items => depthAll items + 1
  | _ => 1

/-- The greatest depth of some values. -/
def depthAll : List Value → Nat
  | [] => 0
  | value :: values => max value.depth (depthAll values)
end

theorem depthAll_le_iff {values : List Value} {n : Nat} :
    depthAll values ≤ n ↔ ∀ value ∈ values, value.depth ≤ n := by
  induction values with
  | nil => simp [depthAll]
  | cons value values ih => rw [depthAll, Nat.max_le, ih, List.forall_mem_cons]

/-- The value, and all that its functions have captured, is at most so deep, and
    the bodies of its functions are as the reader accepts them. -/
inductive Within : Nat → Value → Prop
  | nil {n} (room : 0 < n) : Within n .nil
  | bool {n} (room : 0 < n) (b : Bool) : Within n (.bool b)
  | int {n} (room : 0 < n) (i : Int64) : Within n (.int i)
  | float {n} (room : 0 < n) (x : Float) : Within n (.float x)
  | str {n} (room : 0 < n) (s : String) : Within n (.str s)
  | symbol {n} (room : 0 < n) (name : String) : Within n (.symbol name)
  | builtin {n} (room : 0 < n) (f : Builtin) : Within n (.builtin f)
  | list {n items} (each : ∀ item ∈ items, Within n item) : Within (n + 1) (.list items)
  | vector {n items} (each : ∀ item ∈ items, Within n item) : Within (n + 1) (.vector items)
  | closure {n id params body captured place} (room : 0 < n)
    (shallow : ∀ form ∈ body, form.depth ≤ maxNesting)
    (each : ∀ binding ∈ captured, Within n binding.2) :
    Within n (.closure id params body captured place)

variable {n m : Nat} {value : Value}

theorem Within.mono (h : value.Within n) (le : n ≤ m) : value.Within m := by
  induction h generalizing m with
  | nil room => exact .nil (by omega)
  | bool room b => exact .bool (by omega) b
  | int room i => exact .int (by omega) i
  | float room x => exact .float (by omega) x
  | str room s => exact .str (by omega) s
  | symbol room name => exact .symbol (by omega) name
  | builtin room f => exact .builtin (by omega) f
  | list _ ih =>
    obtain ⟨m, rfl⟩ : ∃ k, m = k + 1 := ⟨m - 1, by omega⟩
    exact .list fun item mem => ih item mem (by omega)
  | vector _ ih =>
    obtain ⟨m, rfl⟩ : ∃ k, m = k + 1 := ⟨m - 1, by omega⟩
    exact .vector fun item mem => ih item mem (by omega)
  | closure room shallow _ ih =>
    exact .closure (by omega) shallow fun binding mem => ih binding mem le

theorem Within.depth_le (h : value.Within n) : value.depth ≤ n := by
  induction h with
  | list _ ih =>
    rw [depth, Nat.add_le_add_iff_right, depthAll_le_iff]
    exact ih
  | vector _ ih =>
    rw [depth, Nat.add_le_add_iff_right, depthAll_le_iff]
    exact ih
  | nil room | bool room | int room | float room | str room | symbol room | builtin room
  | closure room => exact room

theorem Within.callee {id : Moment} {params : List String} {body : List Form}
    {captured : List Binding} {place : Coordinate}
    (h : (Value.closure id params body captured place).Within n) :
    (∀ form ∈ body, form.depth ≤ maxNesting) ∧ ∀ binding ∈ captured, binding.2.Within n := by
  cases h with
  | closure _ shallow each => exact ⟨shallow, each⟩

mutual
/-- Quoted data is no deeper than the form. -/
theorem within_ofForm : ∀ form : Form, (ofForm form).Within form.depth
  | .nil => .nil (Form.depth_pos _)
  | .bool b => .bool (Form.depth_pos _) b
  | .int n => .int (Form.depth_pos _) n
  | .float x => .float (Form.depth_pos _) x
  | .str s => .str (Form.depth_pos _) s
  | .symbol name => .symbol (Form.depth_pos _) name
  | .list items => by
    rw [Form.depth_list]
    exact .list (within_ofForms items)
  | .vector items => by
    rw [Form.depth_vector]
    exact .vector (within_ofForms items)
  | .tagged form => by
    rw [Form.depth_tagged]
    exact (within_ofForm form).mono (Nat.le_succ _)

theorem within_ofForms : ∀ forms : List Form, ∀ value ∈ ofForms forms,
    value.Within (Form.depthAll forms)
  | [], _, mem => absurd mem List.not_mem_nil
  | form :: forms, value, mem => by
    rw [Form.depthAll]
    rcases List.mem_cons.1 mem with rfl | mem
    · exact (within_ofForm form).mono (Nat.le_max_left _ _)
    · exact (within_ofForms forms value mem).mono (Nat.le_max_right _ _)
end

end Value

/-! ## The bound -/

namespace Regime

/-- With each check values may be one level deeper. -/
def growing : Regime where
  value n v := v.Within (maxNesting + n)
  body forms := ∀ form ∈ forms, form.depth ≤ maxNesting
  fails _ := True
  fair _ value answer := answer = .ok value

theorem lawful_growing : growing.Lawful where
  grow le h := h.mono (by omega)
  nil n := .nil (Nat.add_pos_left (by decide) n)
  bool n := .bool (Nat.add_pos_left (by decide) n)
  int n := .int (Nat.add_pos_left (by decide) n)
  float n := .float (Nat.add_pos_left (by decide) n)
  str n := .str (Nat.add_pos_left (by decide) n)
  builtin n := .builtin (Nat.add_pos_left (by decide) n)
  list := .list
  vector := .vector
  function own scope := .closure (Nat.add_pos_left (by decide) _) own scope
  callee h := h.callee
  error _ _ := trivial
  goes := by
    rintro n site value _ ⟨⟩ h _
    exact h
  stops _ _ _ := trivial

theorem layer_growing {form : Form} (shallow : form.depth ≤ maxNesting) :
    growing.Layer (fun form => form.depth ≤ maxNesting) form := by
  apply layer_of_items
  case inside =>
    intro item mem
    have inner := Form.depth_lt_of_mem_items mem
    omega
  case under =>
    rintro inner rfl
    rw [Form.depth_tagged] at shallow
    omega
  case deeper =>
    intro g shallow item mem
    have inner := Form.depth_lt_of_mem_items mem
    omega
  case quoted => exact fun g n shallow => (Value.within_ofForm g).mono (by omega)
  case function =>
    rintro head operands rfl _ form mem
    have inner : form.depth < (Form.list (head :: operands)).depth :=
      Form.depth_lt_of_mem_items (List.mem_cons_of_mem head (List.mem_of_mem_tail mem))
    omega

theorem keeps_growing (room : Nat) :
    growing.Keeps (fun form => form.depth ≤ maxNesting) (evalForm room) := by
  induction room with
  | zero => exact fun _ _ _ _ => evaluates_throw trivial
  | succ room ih =>
    intro form context base place now shallow scope
    have enters : growing.Enters (evalForm room) :=
      lawful_growing.enters_of_forall ih fun _ own => own
    exact lawful_growing.evalNested ih enters (layer_growing shallow) scope

end Regime

/-- How deep values get.  The value of a program that the reader accepts, when
    there are no initial bindings and values pass through breakpoints, is at
    most as many levels deeper than the reader allows for forms as lists and
    vectors have been evaluated, which all ask whether it has been cancelled. -/
theorem depth_le_of_evaluated {source : String} {forms : List Form}
    (read : readForms source = .ok forms) (handler : Run.Handler σ) (passes : handler.LetsPass)
    (s : σ) (now : Moment) {value : Value}
    (result : (((evalForms now forms).start []).under handler s).1.1 = .ok value) :
    value.depth ≤ maxNesting +
      (((evalForms now forms).start []).calls handler s).countP Call.isPoll := by
  have scope : Regime.growing.Scope 0 [] := by simp [Regime.Scope]
  have evaluated : Regime.growing.Evaluates ⟨[], 0⟩ 0 (evalForms now forms) := by
    refine Regime.lawful_growing.evalForms (fun form mem base now scope => ?_) scope
    exact Action.ensures_get_bind (Regime.keeps_growing _ .root now
      (depth_le_of_readForms read mem) scope)
  have ended := Run.Ensures.under evaluated passes s
  unfold Action.start at result ⊢
  rw [result] at ended
  have within : value.Within (maxNesting + (0 + _)) := ended.2
  rw [Nat.zero_add] at within
  exact within.depth_le

theorem depth_le_of_evaluated_list :
    (Value.list [.vector [.int 1], .symbol "a"]).depth ≤ maxNesting +
      (((evalForms [] [.list [.symbol "list", .vector [.int 1],
        .list [.symbol "quote", .symbol "a"]]]).start []).calls (.unwatched false) ()).countP
          Call.isPoll :=
  depth_le_of_evaluated (show readForms "(list [1] 'a)" = .ok _ from rfl) (.unwatched false)
    (Run.letsPass_unwatched false) () [] rfl

/-! ## Beyond the limits -/

/-- Pairs that bind `x` to a vector of what it is bound to, so many times. -/
def rewraps : Nat → List Form
  | 0 => []
  | n + 1 => .symbol "x" :: .vector [.symbol "x"] :: rewraps n

/-- Binds `x` to an empty vector and wraps it so many times. -/
def rewrapping (n : Nat) : Form :=
  .list [.symbol "let", .vector (.symbol "x" :: .vector [] :: rewraps n), .symbol "x"]

/-- The value in so many vectors. -/
def Value.wrapped : Nat → Value → Value
  | 0, value => value
  | n + 1, value => wrapped n (.vector [value])

theorem Value.depth_wrapped (n : Nat) (value : Value) :
    (wrapped n value).depth = n + value.depth := by
  induction n generalizing value with
  | zero => simp [wrapped]
  | succ n ih =>
    simp only [wrapped, ih, depth, depthAll]
    omega

theorem mem_rewraps {n : Nat} {form : Form} (mem : form ∈ rewraps n) :
    form = .symbol "x" ∨ form = .vector [.symbol "x"] := by
  induction n with
  | zero => simp [rewraps] at mem
  | succ n ih =>
    simp only [rewraps, List.mem_cons] at mem
    rcases mem with same | same | mem
    · exact .inl same
    · exact .inr same
    · exact ih mem

theorem readForms_rewrapping (n : Nat) :
    readForms (rewrapping n).print = .ok [rewrapping n] := by
  have x : (Form.symbol "x").Plain IsName := .symbol ⟨rfl, by decide⟩
  have vector : (Form.vector [.symbol "x"]).Plain IsName := .vector (by simpa using x)
  refine readForms_of_readForm (readForm_of_shallow ?_ ?_)
  · refine .list ?_
    simp only [List.forall_mem_cons, List.not_mem_nil, false_implies, implies_true, and_true]
    refine ⟨.symbol ⟨rfl, by decide⟩, .vector ?_, x⟩
    simp only [List.forall_mem_cons]
    refine ⟨x, .vector (by simp), fun form mem => ?_⟩
    rcases mem_rewraps mem with rfl | rfl
    · exact x
    · exact vector
  · have pairs : Form.depthAll (rewraps n) ≤ 2 := by
      rw [Form.depthAll_le_iff]
      intro form mem
      rcases mem_rewraps mem with rfl | rfl <;> decide
    have whole : (rewrapping n).depth ≤ 4 := by
      simp only [rewrapping, Form.depth, Form.depthAll]
      omega
    exact Nat.le_trans whole (by decide)

section

variable {locals : List Binding} {depth : Nat} {value : Value}

theorem outcome_wrap (found : lookup? "x" locals = some value) (room : Nat) (place : Coordinate)
    (now : Moment) : (evalForm (room + 2) (.vector [.symbol "x"]) place now).outcome
      ⟨locals, depth⟩ = (.ok (.vector [value]), ⟨locals, depth⟩) := by
  have deeper : lookup? "x" (Context.mk locals (depth + 1)).locals = _ := found
  apply Action.outcome_nested
  rw [evalInner, Action.outcome_checkpoint_bind]
  have items : (evalItems (evalForm (room + 1)) place now 0 [.symbol "x"]).outcome
      ⟨locals, depth + 1⟩ = (.ok [value], ⟨locals, depth + 1⟩) :=
    Action.outcome_bind_ok (outcome_symbol deeper room _ _)
  exact Action.outcome_bind_ok items

theorem outcome_rewraps (found : lookup? "x" locals = some value) (n room depth : Nat)
    (place : Coordinate) (now : Moment) (position : Nat) :
    ∃ more, (evalBindings (evalForm (room + 2)) place now position (rewraps n)).outcome
        ⟨locals, depth⟩ = (.ok (), ⟨locals ++ more, depth⟩) ∧
      lookup? "x" (locals ++ more) = some (value.wrapped n) := by
  induction n generalizing locals value position with
  | zero =>
    refine ⟨[], ?_, ?_⟩
    · simp [rewraps, evalBindings, Action.outcome_pure]
    · simpa [Value.wrapped] using found
  | succ n ih =>
    obtain ⟨more, bound, last⟩ :=
      ih (lookup?_append_singleton "x" (.vector [value]) locals) (position + 2)
    rw [List.append_assoc] at bound last
    refine ⟨_, ?_, last⟩
    rw [rewraps, evalBindings]
    simp only [Form.symbol?]
    rw [Action.outcome_bind_ok (outcome_wrap found room _ _), Action.outcome_addBinding_bind]
    exact bound

theorem length_rewraps (n : Nat) : (rewraps n).length = 2 * n := by
  induction n with
  | zero => rfl
  | succ n ih =>
    simp only [rewraps, List.length_cons, ih]
    omega

theorem outcome_rewrapping (n room : Nat) (place : Coordinate) (now : Moment) :
    (evalForm (room + 3) (rewrapping n) place now).outcome ⟨locals, depth⟩ =
      (.ok (.wrapped n (.vector [])), ⟨locals, depth⟩) := by
  obtain ⟨more, bound, last⟩ := outcome_rewraps
    (lookup?_append_singleton "x" (.vector []) locals) n room (depth + 1) (place.child 1) now 2
  have even : (Form.symbol "x" :: .vector [] :: rewraps n).length % 2 = 0 := by
    simp only [List.length_cons, length_rewraps]
    omega
  have pairs : (evalBindings (evalForm (room + 2)) (place.child 1) now 0
      (.symbol "x" :: .vector [] :: rewraps n)).outcome ⟨locals, depth + 1⟩ =
        (.ok (), ⟨locals ++ [("x", .vector [])] ++ more, depth + 1⟩) := by
    have first : (evalForm (room + 2) (.vector []) ((place.child 1).child 1)
        (.binding 1 :: now)).outcome ⟨locals, depth + 1⟩ =
          (.ok (.vector []), ⟨locals, depth + 1⟩) := rfl
    rw [evalBindings]
    simp only [Form.symbol?]
    rw [Action.outcome_bind_ok first, Action.outcome_addBinding_bind]
    exact bound
  have body : (evalBody (evalForm (room + 2)) place now .nil 2 [.symbol "x"]).outcome
      ⟨locals ++ [("x", .vector [])] ++ more, depth + 1⟩ =
        (.ok (.wrapped n (.vector [])), ⟨locals ++ [("x", .vector [])] ++ more, depth + 1⟩) :=
    Action.outcome_bind_ok (outcome_symbol last _ _ _)
  have scope : (evalLet (evalForm (room + 2)) place now
      [.vector (.symbol "x" :: .vector [] :: rewraps n), .symbol "x"]).outcome
        ⟨locals, depth + 1⟩ = (.ok (.wrapped n (.vector [])), ⟨locals, depth + 1⟩) := by
    simp only [evalLet, List.head?_cons, Option.bind_some, Form.vector?, Form.untagged, even,
      ne_eq, not_true_eq_false, if_false]
    apply Action.outcome_inScope
    rw [Action.outcome_bind_ok pairs]
    rw [List.append_assoc] at body ⊢
    exact body
  apply Action.outcome_nested
  rw [rewrapping, evalInner, Action.outcome_checkpoint_bind]
  exact scope

end

/-- The bindings of one `let` wrap a value so many times, without deeper forms
    or calls. -/
theorem evaluates_rewrapping (n : Nat) (now : Moment) :
    (evalForms now [rewrapping n]).outcome ⟨[], 0⟩ = (.ok (.wrapped n (.vector [])), ⟨[], 0⟩) := by
  have evaluated : (eval (rewrapping n) .root (.form 0 :: now)).outcome ⟨[], 0⟩ =
      (.ok (.wrapped n (.vector [])), ⟨[], 0⟩) := by
    unfold eval
    rw [Action.outcome_get_bind]
    exact outcome_rewrapping n 509 .root (.form 0 :: now)
  rw [evalForms, evalFormsFrom, Action.outcome_announce_bind]
  exact Action.outcome_bind_ok evaluated

/-- A program that the reader accepts and that gives a value nested deeper than
    forms may be nested and evaluations may be deep together. -/
theorem deeper_than_limits :
    readForms (rewrapping 1024).print = .ok [rewrapping 1024] ∧
      ∃ value, (((evalForms [] [rewrapping 1024]).start []).under (.unwatched false) ()).1.1 =
        .ok value ∧ maxNesting + maxDepth < value.depth := by
  refine ⟨readForms_rewrapping 1024, .wrapped 1024 (.vector []), ?_, ?_⟩
  · rw [← Run.untouched_eq_under]
    exact congrArg Prod.fst (evaluates_rewrapping 1024 [])
  · rw [Value.depth_wrapped]
    decide

end Stepper.Eval
