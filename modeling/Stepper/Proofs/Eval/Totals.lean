/-
  Sums, differences and products.

  `+`, `*`, `-`, `inc` and `dec` work off their arguments from the left
  (`Builtin.Folds`).  Of integers they give the exact total, provided that it
  and all totals on the way are integers of the language
  (`Arithmetic.Within`), and else the overflow.  Of other values they fail at
  the first step that overflows or meets what is no number
  (`Builtin.Refuses`).  Main result: `Builtin.call_arithmetic`.
-/
import Stepper.Proofs.Eval.Arithmetic

namespace Stepper.Eval

open Stepper.Number (fit?)

/-- The number is one of the integers of the language. -/
def Representable (n : Int) : Prop := Int64.minValue.toInt ≤ n ∧ n ≤ Int64.maxValue.toInt

instance (n : Int) : Decidable (Representable n) := inferInstanceAs (Decidable (_ ∧ _))

theorem Representable.of_int (n : Int64) : Representable n.toInt :=
  ⟨n.minValue_le_toInt, n.toInt_le⟩

theorem checked_of_representable {n : Int} (h : Representable n) :
    ∃ i : Int64, checked n = .ok (.int i) ∧ i.toInt = n := by
  have value : (Int64.ofInt n).toInt = n := Number.toInt_ofInt h.1 h.2
  refine ⟨Int64.ofInt n, ?_, value⟩
  rw [← checked_toInt, value]

theorem checked_of_not_representable {n : Int} (h : ¬ Representable n) :
    checked n = .error .overflow := by
  have unfit : fit? n = none := if_neg h
  rw [checked, unfit]

/-! ## Steps -/

namespace Arithmetic

/-- The operation on whole numbers, where division drops the remainder. -/
def exact (op : Arithmetic) (a b : Int) : Int :=
  match op with
  | add => a + b
  | sub => a - b
  | mul => a * b
  | div => a.tdiv b

/-- From `total` the operation comes to `result` by a number that follows. -/
inductive Takes (op : Arithmetic) : Value → Value → Value → Prop
  | exactly {a b n : Int64} (value : n.toInt = op.exact a.toInt b.toInt) :
    Takes op (.int a) (.int b) (.int n)
  | onFloat (x : Float) (n : Numeral) :
    Takes op (.float x) n.value (.float (op.onFloats x n.toFloat))
  | byFloat (a : Int64) (y : Float) :
    Takes op (.int a) (.float y) (.float (op.onFloats (Numeral.int a).toFloat y))

/-- From `start` the operation comes to `total` by the numbers that follow. -/
inductive Reaches (op : Arithmetic) : Value → List Value → Value → Prop
  | nil (start : Value) : Reaches op start [] start
  | cons {start value next total : Value} {values : List Value} (step : op.Takes start value next)
    (rest : Reaches op next values total) : Reaches op start (value :: values) total

/-- All totals of the numbers, the ones on the way included, are integers of
    the language. -/
def Within (op : Arithmetic) (start : Int) (ns : List Int) : Prop :=
  ∀ before, before <+: ns → Representable (before.foldl op.exact start)

theorem within_cons_iff {op : Arithmetic} {start n : Int} {ns : List Int} :
    op.Within start (n :: ns) ↔ Representable start ∧ op.Within (op.exact start n) ns := by
  constructor
  · intro h
    refine ⟨h [] List.nil_prefix, ?_⟩
    intro before beginning
    exact h (n :: before) (List.cons_prefix_cons.2 ⟨rfl, beginning⟩)
  · rintro ⟨first, rest⟩ before beginning
    rcases List.prefix_cons_iff.1 beginning with rfl | ⟨later, rfl, others⟩
    · exact first
    · exact rest later others

end Arithmetic

namespace Builtin

variable (b : Builtin) {op : Arithmetic}

/-- The error with which the operation cannot go on from `total`. -/
inductive Refuses (op : Arithmetic) : Value → Value → Error → Prop
  | overflow {m n : Int64} (outside : ¬ Representable (op.exact m.toInt n.toInt)) :
    Refuses op (.int m) (.int n) .overflow
  | left {total next : Value} (other : total.numeral? = none) :
    Refuses op total next (.typeMismatch b "numbers" total.kind)
  | right (n : Numeral) {next : Value} (other : next.numeral? = none) :
    Refuses op n.value next (.typeMismatch b "numbers" next.kind)

theorem onIntegers_eq_checked (whole : op ≠ .div) (m n : Int64) :
    op.onIntegers m n = checked (op.exact m.toInt n.toInt) := by
  cases op with
  | add | sub | mul => rfl
  | div => exact absurd rfl whole

theorem arith_of_takes (whole : op ≠ .div) {left right result : Value}
    (h : op.Takes left right result) : b.arith op left right = .ok result := by
  cases h with
  | @exactly m n i value =>
    change op.onIntegers m n = _
    rw [onIntegers_eq_checked whole, ← value, checked_toInt]
  | onFloat x n => cases n <;> rfl
  | byFloat m y => rfl

theorem arith_of_refuses (whole : op ≠ .div) {left right : Value} {e : Error}
    (h : b.Refuses op left right e) : b.arith op left right = .error e := by
  cases h with
  | @overflow m n outside =>
    change op.onIntegers m n = _
    rw [onIntegers_eq_checked whole, checked_of_not_representable outside]
  | left other =>
    rw [arith, other]
    rfl
  | right n other =>
    rw [arith, n.numeral?_value, other]
    cases n <;> rfl

/-- A step goes on or is refused. -/
theorem takes_or_refuses (op : Arithmetic) (left right : Value) :
    (∃ result, op.Takes left right result) ∨ ∃ e, b.Refuses op left right e := by
  cases first : left.numeral? with
  | none => exact .inr ⟨_, .left first⟩
  | some m =>
    cases second : right.numeral? with
    | none =>
      obtain rfl := Value.numeral?_eq_some_iff.1 first
      exact .inr ⟨_, .right m second⟩
    | some n =>
      obtain rfl := Value.numeral?_eq_some_iff.1 first
      obtain rfl := Value.numeral?_eq_some_iff.1 second
      match m, n with
      | .float x, n => exact .inl ⟨_, .onFloat x n⟩
      | .int m, .float y => exact .inl ⟨_, .byFloat m y⟩
      | .int m, .int n =>
        by_cases inside : Representable (op.exact m.toInt n.toInt)
        · obtain ⟨i, -, value⟩ := checked_of_representable inside
          exact .inl ⟨_, .exactly value⟩
        · exact .inr ⟨_, .overflow inside⟩

theorem arith_eq_ok_iff (whole : op ≠ .div) {left right result : Value} :
    b.arith op left right = .ok result ↔ op.Takes left right result := by
  refine ⟨?_, b.arith_of_takes whole⟩
  intro done
  rcases b.takes_or_refuses op left right with ⟨other, takes⟩ | ⟨e, refuses⟩
  · cases (b.arith_of_takes whole takes).symm.trans done
    exact takes
  · cases (b.arith_of_refuses whole refuses).symm.trans done

theorem arith_eq_error_iff (whole : op ≠ .div) {left right : Value} {e : Error} :
    b.arith op left right = .error e ↔ b.Refuses op left right e := by
  refine ⟨?_, b.arith_of_refuses whole⟩
  intro failed
  rcases b.takes_or_refuses op left right with ⟨result, takes⟩ | ⟨other, refuses⟩
  · cases (b.arith_of_takes whole takes).symm.trans failed
  · cases (b.arith_of_refuses whole refuses).symm.trans failed
    exact refuses

/-! ## Rows -/

theorem chain_eq_ok_iff (whole : op ≠ .div) {start total : Value} {values : List Value} :
    b.chain op start values = .ok total ↔ op.Reaches start values total := by
  constructor
  · intro done
    induction values generalizing start with
    | nil =>
      cases done
      exact .nil _
    | cons value values ih =>
      rw [chain, List.foldlM_cons, bind_eq_ok_iff] at done
      obtain ⟨next, step, rest⟩ := done
      exact .cons ((b.arith_eq_ok_iff whole).1 step) (ih rest)
  · intro h
    induction h with
    | nil => rfl
    | cons step _ ih => exact (foldlM_cons_ok (b.arith_of_takes whole step)).trans ih

/-- A row fails with the error of its first step that is refused. -/
theorem chain_eq_error_iff (whole : op ≠ .div) {start : Value} {values : List Value} {e : Error} :
    b.chain op start values = .error e ↔
      ∃ before next after total, values = before ++ next :: after ∧
        op.Reaches start before total ∧ b.Refuses op total next e := by
  rw [chain, foldlM_eq_error_iff]
  constructor
  · rintro ⟨before, next, after, total, split, done, failed⟩
    exact ⟨before, next, after, total, split, (b.chain_eq_ok_iff whole).1 done,
      (b.arith_eq_error_iff whole).1 failed⟩
  · rintro ⟨before, next, after, total, split, reaches, refuses⟩
    exact ⟨before, next, after, total, split, (b.chain_eq_ok_iff whole).2 reaches,
      b.arith_of_refuses whole refuses⟩

theorem chain_of_within (whole : op ≠ .div) {start : Int64} {ns : List Int64}
    (within : op.Within start.toInt (ns.map Int64.toInt)) :
    ∃ total : Int64, b.chain op (.int start) (ns.map .int) = .ok (.int total) ∧
      total.toInt = (ns.map Int64.toInt).foldl op.exact start.toInt := by
  induction ns generalizing start with
  | nil => exact ⟨start, rfl, rfl⟩
  | cons n ns ih =>
    obtain ⟨-, rest⟩ := Arithmetic.within_cons_iff.1 within
    obtain ⟨next, -, value⟩ := checked_of_representable (rest [] List.nil_prefix)
    have value : next.toInt = op.exact start.toInt n.toInt := value
    obtain ⟨total, done, sum⟩ := ih (value ▸ rest)
    refine ⟨total, ?_, sum.trans ?_⟩
    · exact (foldlM_cons_ok (b.arith_of_takes whole (.exactly value))).trans done
    · rw [List.map_cons, List.foldl_cons, value]

theorem chain_of_not_within (whole : op ≠ .div) {start : Int64} {ns : List Int64}
    (outside : ¬ op.Within start.toInt (ns.map Int64.toInt)) :
    b.chain op (.int start) (ns.map .int) = .error .overflow := by
  induction ns generalizing start with
  | nil =>
    refine absurd ?_ outside
    intro before beginning
    rw [List.prefix_nil.1 beginning]
    exact .of_int start
  | cons n ns ih =>
    rw [List.map_cons, Arithmetic.within_cons_iff, not_and] at outside
    by_cases inside : Representable (op.exact start.toInt n.toInt)
    · obtain ⟨next, -, value⟩ := checked_of_representable inside
      have rest := ih (value ▸ outside (.of_int start))
      exact (foldlM_cons_ok (b.arith_of_takes whole (.exactly value))).trans rest
    · exact foldlM_cons_error (b.arith_of_refuses whole (.overflow inside))

/-! ## Calls -/

/-- How the functions work off their arguments: the operation, what it starts
    with and what follows. -/
inductive Folds {α : Type} (zero one : α) :
    Builtin → List α → Arithmetic → α → List α → Prop
  | sum (xs : List α) : Folds zero one .add xs .add zero xs
  | product (xs : List α) : Folds zero one .mul xs .mul one xs
  | negation (x : α) : Folds zero one .sub [x] .sub zero [x]
  | difference (x y : α) (xs : List α) : Folds zero one .sub (x :: y :: xs) .sub x (y :: xs)
  | increment (x : α) : Folds zero one .inc [x] .add x [one]
  | decrement (x : α) : Folds zero one .dec [x] .sub x [one]

section

variable {α β : Type} {zero one start : α} {xs rest : List α} {b : Builtin}

theorem Folds.ne_div (h : b.Folds zero one xs op start rest) : op ≠ .div := by
  cases h <;> nofun

theorem Folds.map (h : b.Folds zero one xs op start rest) (f : α → β) :
    b.Folds (f zero) (f one) (xs.map f) op (f start) (rest.map f) := by
  cases h with
  | sum => exact .sum _
  | product => exact .product _
  | negation => exact .negation _
  | difference => exact .difference _ _ _
  | increment => exact .increment _
  | decrement => exact .decrement _

end

theorem call_of_folds {b : Builtin} {args rest : List Value} {start : Value}
    (h : b.Folds (.int 0) (.int 1) args op start rest) : b.call args = b.chain op start rest := by
  have single : ∀ left right, b.chain op left [right] = b.arith op left right := by
    intro left right
    rw [chain, List.foldlM_cons]
    cases b.arith op left right <;> rfl
  cases h with
  | sum | product | difference => rfl
  | negation | increment | decrement => exact (single _ _).symm

/-- The function takes as many arguments. -/
def Accepts (args : List Value) : Prop :=
  ∀ count, b.call args ≠ .error (b.wrongCount count args)

theorem Folds.accepts {b : Builtin} {args rest : List Value} {start : Value}
    (h : b.Folds (.int 0) (.int 1) args op start rest) : b.Accepts args := by
  intro count failed
  rw [call_of_folds h, b.chain_eq_error_iff h.ne_div] at failed
  obtain ⟨_, _, _, _, _, _, refuses⟩ := failed
  cases refuses

theorem exists_folds {b : Builtin} (arithmetic : b ∈ [add, mul, sub, inc, dec])
    {args : List Value} (accepts : b.Accepts args) {α : Type} (zero one : α) {xs : List α}
    (length : xs.length = args.length) : ∃ op start rest, b.Folds zero one xs op start rest := by
  cases b with
  | add => exact ⟨_, _, _, .sum xs⟩
  | mul => exact ⟨_, _, _, .product xs⟩
  | sub =>
    match args, xs with
    | [], _ => exact absurd rfl (accepts (.atLeast 1))
    | [_], [x] => exact ⟨_, _, _, .negation x⟩
    | _ :: _ :: _, x :: y :: xs => exact ⟨_, _, _, .difference x y xs⟩
  | inc =>
    match args, xs with
    | [_], [x] => exact ⟨_, _, _, .increment x⟩
    | [], _ | _ :: _ :: _, _ => exact absurd rfl (accepts (.exactly 1))
  | dec =>
    match args, xs with
    | [_], [x] => exact ⟨_, _, _, .decrement x⟩
    | [], _ | _ :: _ :: _, _ => exact absurd rfl (accepts (.exactly 1))
  | _ => simp at arithmetic

/-- Arithmetic other than division.  Of integers the total is exact or
    overflows, and any failure is that of the first step that is refused. -/
theorem call_arithmetic {b : Builtin} (arithmetic : b ∈ [add, mul, sub, inc, dec]) :
    (∀ args, b.Accepts args ↔ ∃ op start rest, b.Folds (.int 0) (.int 1) args op start rest) ∧
    (∀ ns : List Int64, b.Accepts (ns.map .int) → ∃ op start rest, b.Folds 0 1 ns op start rest ∧
      (op.Within start.toInt (rest.map Int64.toInt) →
        ∃ total : Int64, b.call (ns.map .int) = .ok (.int total) ∧
          total.toInt = (rest.map Int64.toInt).foldl op.exact start.toInt) ∧
      (¬ op.Within start.toInt (rest.map Int64.toInt) →
        b.call (ns.map .int) = .error .overflow)) ∧
    (∀ args, b.Accepts args → ∃ op start rest, b.Folds (.int 0) (.int 1) args op start rest ∧
      ∀ e, b.call args = .error e ↔ ∃ before next after total, rest = before ++ next :: after ∧
        op.Reaches start before total ∧ b.Refuses op total next e) := by
  refine ⟨?_, ?_, ?_⟩
  · intro args
    constructor
    · intro accepts
      exact exists_folds arithmetic accepts _ _ rfl
    · rintro ⟨op, start, rest, folds⟩
      exact folds.accepts
  · intro ns accepts
    obtain ⟨op, start, rest, folds⟩ :=
      exists_folds arithmetic accepts (0 : Int64) 1 (List.length_map Value.int).symm
    have call : b.call (ns.map .int) = b.chain op (.int start) (rest.map .int) :=
      call_of_folds (folds.map Value.int)
    rw [call]
    exact ⟨op, start, rest, folds, b.chain_of_within folds.ne_div,
      b.chain_of_not_within folds.ne_div⟩
  · intro args accepts
    obtain ⟨op, start, rest, folds⟩ := exists_folds arithmetic accepts (Value.int 0) (.int 1) rfl
    refine ⟨op, start, rest, folds, ?_⟩
    intro e
    rw [call_of_folds folds]
    exact b.chain_eq_error_iff folds.ne_div

theorem call_arithmetic_samples :
    Builtin.sub ∈ [add, mul, sub, inc, dec] ∧ Builtin.add ∈ [add, mul, sub, inc, dec] ∧
    (∃ n : Int64, Builtin.sub.call [.int 5, .int 7] = .ok (.int n) ∧ n.toInt = -2) ∧
    Builtin.add.call [.int Int64.maxValue, .int 1, .int (-1)] = .error .overflow ∧
    Builtin.sub.call [.str "a", .nil] = .error (.typeMismatch .sub "numbers" "string") := by
  have difference : Builtin.sub ∈ [add, mul, sub, inc, dec] := by decide
  have sum : Builtin.add ∈ [add, mul, sub, inc, dec] := by decide
  obtain ⟨-, ofIntegers, ofValues⟩ := call_arithmetic difference
  obtain ⟨-, ofIntegers', -⟩ := call_arithmetic sum
  refine ⟨difference, sum, ?_, ?_, ?_⟩
  · obtain ⟨op, start, rest, folds, total, -⟩ := ofIntegers [5, 7] nofun
    cases folds
    refine total ?_
    intro before beginning
    have short : before = [] ∨ before = [7] := by
      rcases List.prefix_cons_iff.1 beginning with none | ⟨later, one, others⟩
      · exact .inl none
      · exact .inr (by rw [one, List.prefix_nil.1 others]; rfl)
    rcases short with rfl | rfl <;> decide
  · obtain ⟨op, start, rest, folds, -, overflow⟩ := ofIntegers' [Int64.maxValue, 1, -1] nofun
    cases folds
    refine overflow ?_
    intro within
    exact absurd (within [Int64.maxValue.toInt, 1] ⟨[-1], rfl⟩) (by decide)
  · obtain ⟨op, start, rest, folds, failure⟩ := ofValues [.str "a", .nil] nofun
    cases folds
    exact (failure _).2 ⟨[], .nil, [], .str "a", rfl, .nil _, .left rfl⟩

end Builtin

end Stepper.Eval
