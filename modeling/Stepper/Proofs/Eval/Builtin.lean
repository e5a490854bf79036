/-
  What built-in functions give.

  A call of a built-in function fails with an error of its own, or it gives a
  number, a truth value, a text, one of its arguments or all of them
  (`Builtin.gives_call`).  It knows nothing of the depth of evaluations, so
  their limit is no error of its own (`Builtin.call_ne_depthExceeded`).
-/
import Stepper.Eval.Builtin
import Stepper.Proofs.Data.Except

namespace Stepper.Eval

/-! ## Numbers -/

/-- The number as a value. -/
def Numeral.value : Numeral → Value
  | int n => .int n
  | float x => .float x

@[simp] theorem Numeral.numeral?_value (n : Numeral) : n.value.numeral? = some n := by
  cases n <;> rfl

theorem Value.numeral?_eq_some_iff {value : Value} {n : Numeral} :
    value.numeral? = some n ↔ value = n.value := by
  constructor
  · intro h
    cases value <;> cases h <;> rfl
  · rintro rfl
    exact n.numeral?_value

theorem Builtin.numerals_map_value (b : Builtin) (ns : List Numeral) :
    b.numerals (ns.map Numeral.value) = .ok ns := by
  induction ns with
  | nil => rfl
  | cons n ns ih =>
    rw [numerals] at ih ⊢
    rw [List.map_cons, List.mapM_cons, n.numeral?_value, ih]
    rfl

/-! ## Results -/

/-- What a built-in function may give for some arguments. -/
inductive Builtin.Gives (args : List Value) : Except Error Value → Prop
  | fails {e : Error} (own : e ≠ .cancelled) : Gives args (.error e)
  | bool (b : Bool) : Gives args (.ok (.bool b))
  | int (n : Int64) : Gives args (.ok (.int n))
  | float (x : Float) : Gives args (.ok (.float x))
  | str (s : String) : Gives args (.ok (.str s))
  | argument {value : Value} (mem : value ∈ args) : Gives args (.ok value)
  | list : Gives args (.ok (.list args))
  | vector : Gives args (.ok (.vector args))

namespace Builtin

variable {args : List Value}

theorem gives_checked (n : Int) : Gives args (checked n) := by
  rw [checked]
  split
  · exact .int _
  · exact .fails fun same => by cases same

theorem gives_divide (a b : Int64) : Gives args (divide a b) := by
  rw [divide]
  split
  · exact .fails fun same => by cases same
  · split
    · exact gives_checked _
    · exact .float _

theorem gives_onIntegers (op : Arithmetic) (a b : Int64) : Gives args (op.onIntegers a b) := by
  cases op with
  | add | sub | mul => exact gives_checked _
  | div => exact gives_divide a b

theorem gives_modulo (a b : Int64) : Gives args (modulo a b) := by
  rw [modulo]
  split
  · exact .fails fun same => by cases same
  · split
    · exact .fails fun same => by cases same
    · exact gives_checked _

variable (b : Builtin) (op : Arithmetic)

theorem gives_arith (left right : Value) : Gives args (b.arith op left right) := by
  rw [arith]
  split
  · exact gives_onIntegers op _ _
  · exact .float _
  · exact .fails fun same => by cases same
  · exact .fails fun same => by cases same

theorem gives_chain {start : Value} (h : Gives args (.ok start)) (rest : List Value) :
    Gives args (b.chain op start rest) := by
  induction rest generalizing start with
  | nil => exact h
  | cons value rest ih =>
    have step : Gives args (b.arith op start value) := b.gives_arith op start value
    rw [chain, List.foldlM_cons]
    cases result : b.arith op start value with
    | ok next => exact ih (result ▸ step)
    | error e =>
      rw [result] at step
      exact step

theorem mismatch_of_numerals {values : List Value} {e : Error}
    (failed : b.numerals values = .error e) : ∃ value, e = b.mismatch "numbers" value := by
  obtain ⟨value, -, failed⟩ := exists_of_mapM_error failed
  refine ⟨value, ?_⟩
  split at failed
  · cases failed
  · exact (Except.error.inj failed).symm

theorem gives_compareChain (values : List Value) : Gives args (b.compareChain values) := by
  rw [compareChain]
  cases numbers : b.numerals values with
  | ok ns => exact .bool _
  | error e =>
    obtain ⟨value, rfl⟩ := b.mismatch_of_numerals numbers
    exact .fails fun same => by cases same

theorem gives_call (args : List Value) : Gives args (b.call args) := by
  have wrongCount : ∀ (b : Builtin) (count : ArgumentCount) (given : List Value),
      Gives args (.error (b.wrongCount count given)) :=
    fun _ _ _ => .fails fun same => by cases same
  have mismatch : ∀ (b : Builtin) (expected : String) (value : Value),
      Gives args (.error (b.mismatch expected value)) :=
    fun _ _ _ => .fails fun same => by cases same
  cases b with
  | add | mul => exact gives_chain _ _ (.int _) _
  | sub | div =>
    rcases args with _ | ⟨first, _ | ⟨second, rest⟩⟩
    · exact wrongCount _ _ _
    · exact gives_arith _ _ _ _
    · exact gives_chain _ _ (.argument List.mem_cons_self) _
  | eq =>
    rcases args with _ | ⟨first, rest⟩
    · exact wrongCount _ _ _
    · exact .bool _
  | lt | gt | le | ge =>
    rcases args with _ | ⟨first, rest⟩
    · exact wrongCount _ _ _
    · exact gives_compareChain _ _
  | str => exact .str _
  | list => exact .list
  | vector => exact .vector
  | mod =>
    rcases args with _ | ⟨left, _ | ⟨right, _ | ⟨third, rest⟩⟩⟩
    · exact wrongCount _ _ _
    · exact wrongCount _ _ _
    · simp only [call]
      split
      · exact gives_modulo _ _
      · exact mismatch _ _ _
      · exact mismatch _ _ _
    · exact wrongCount _ _ _
  | not =>
    rcases args with _ | ⟨value, _ | ⟨second, rest⟩⟩
    · exact wrongCount _ _ _
    · exact .bool _
    · exact wrongCount _ _ _
  | inc | dec =>
    rcases args with _ | ⟨value, _ | ⟨second, rest⟩⟩
    · exact wrongCount _ _ _
    · exact gives_arith _ _ _ _
    · exact wrongCount _ _ _
  | count =>
    rcases args with _ | ⟨value, _ | ⟨second, rest⟩⟩
    · exact wrongCount _ _ _
    · simp only [call]
      split
      · exact gives_checked _
      · exact mismatch _ _ _
    · exact wrongCount _ _ _

theorem call_ne_cancelled (args : List Value) : b.call args ≠ .error .cancelled := by
  have gives := b.gives_call args
  intro same
  rw [same] at gives
  cases gives with
  | fails own => exact own rfl

/-! ## The depth limit -/

variable {limit : Nat}

theorem checked_ne_depthExceeded (n : Int) : checked n ≠ .error (.depthExceeded limit) := by
  unfold checked
  split <;> simp

theorem modulo_ne_depthExceeded (left right : Int64) :
    modulo left right ≠ .error (.depthExceeded limit) := by
  unfold modulo
  split
  · simp
  · split
    · simp
    · exact checked_ne_depthExceeded _

theorem arith_ne_depthExceeded (left right : Value) :
    b.arith op left right ≠ .error (.depthExceeded limit) := by
  unfold arith
  split
  · cases op with
    | add | sub | mul => exact checked_ne_depthExceeded _
    | div =>
      simp only [Arithmetic.onIntegers, divide]
      split
      · simp
      · split
        · exact checked_ne_depthExceeded _
        · simp
  · simp
  · simp [mismatch]
  · simp [mismatch]

theorem chain_ne_depthExceeded (start : Value) :
    b.chain op start args ≠ .error (.depthExceeded limit) := by
  intro failed
  obtain ⟨left, right, -, failed⟩ := exists_of_foldlM_error failed
  exact b.arith_ne_depthExceeded op left right failed

theorem compareChain_ne_depthExceeded : b.compareChain args ≠ .error (.depthExceeded limit) := by
  intro failed
  rw [compareChain, bind_eq_error_iff] at failed
  rcases failed with failed | ⟨numbers, -, failed⟩
  · obtain ⟨value, same⟩ := b.mismatch_of_numerals failed
    cases same
  · cases failed

theorem call_ne_depthExceeded (args : List Value) :
    b.call args ≠ .error (.depthExceeded limit) := by
  fun_cases call b args <;>
    simp [wrongCount, mismatch, chain_ne_depthExceeded, arith_ne_depthExceeded,
      compareChain_ne_depthExceeded, modulo_ne_depthExceeded, checked_ne_depthExceeded]

end Builtin

end Stepper.Eval
