/-
  Chains of comparisons.

  A comparison of several numbers looks at neighbours only.  Yet `=`, `<` and
  `>` hold for all pairs when they hold for neighbours.  So do `<=` and `>=`,
  but for two integers that a float separates: when they round to the same
  float, they may stand in the wrong order (`Blurred`).  Main result:
  `Builtin.call_comparison`.
-/
import Stepper.Proofs.Eval.Builtin
import Stepper.Proofs.Number.Order

namespace Stepper.Eval

open Stepper.Number Binary64

/-! ## Pairs of numbers -/

namespace Numeral

/-- An integer, or a float other than not-a-number. -/
def IsNumber (v : Numeral) : Prop := ∀ x, v = .float x → x.isNaN = false

/-- The place of the nearest float among all floats. -/
def rank (v : Numeral) : Int := Binary64.rank v.toFloat

/-- Integers are in the relation, or the places of the nearest floats if the
    numbers are not both integers. -/
def Ordered (rel : Int → Int → Prop) : Numeral → Numeral → Prop
  | int a, int b => rel a.toInt b.toInt
  | v, w => rel v.rank w.rank

variable {u v w : Numeral}

theorem IsNumber.isNaN_toFloat (h : v.IsNumber) : v.toFloat.isNaN = false := by
  cases v with
  | int a => exact isNaN_ofInt a.toInt
  | float x => exact h x rfl

theorem ordered_flip {rel : Int → Int → Prop} :
    v.Ordered (fun a b => rel b a) w ↔ w.Ordered rel v := by
  cases v <;> cases w <;> rfl

theorem rank_le_rank {m n : Int64} (le : m.toInt ≤ n.toInt) : (int m).rank ≤ (int n).rank :=
  rank_ofInt_le le

/-- Numbers in order have nearest floats in order. -/
theorem Ordered.rank_le (h : v.Ordered (· ≤ ·) w) : v.rank ≤ w.rank := by
  cases v with
  | int m =>
    cases w with
    | int n => exact rank_le_rank h
    | float y => exact h
  | float x => exact h

theorem Ordered.le (h : v.Ordered (· < ·) w) : v.Ordered (· ≤ ·) w := by
  cases v <;> cases w <;> exact Int.le_of_lt h

theorem ordered_of_rank_lt (less : v.rank < w.rank) : v.Ordered (· < ·) w := by
  cases v with
  | int m =>
    cases w with
    | int n =>
      refine Int.not_le.1 fun above => ?_
      have := rank_le_rank above
      omega
    | float y => exact less
  | float x => exact less

theorem Ordered.trans (first : u.Ordered (· < ·) v) (second : v.Ordered (· < ·) w) :
    u.Ordered (· < ·) w := by
  have low := first.le.rank_le
  have high := second.le.rank_le
  cases v with
  | float y =>
    -- Next to a float the order is that of the floats.
    have low : u.rank < (float y).rank := by cases u <;> exact first
    exact ordered_of_rank_lt (by omega)
  | int n =>
    cases u with
    | float x =>
      have low : (float x).rank < (int n).rank := first
      exact ordered_of_rank_lt (by omega)
    | int m =>
      cases w with
      | float y =>
        have high : (int n).rank < (float y).rank := second
        exact ordered_of_rank_lt (by omega)
      | int k => exact Int.lt_trans first second

end Numeral

/-! ## Calls with two numbers -/

namespace Builtin

/-- Whether the comparison `b` holds for two numbers. -/
def related (b : Builtin) (v w : Numeral) : Bool :=
  if b = eq then v.value.same w.value else ((order? v w).map b.holds).getD false

/-- The relations of the comparisons by order. -/
inductive Relates : Builtin → (Int → Int → Prop) → Prop
  | lt : Relates .lt (fun a b => a < b)
  | gt : Relates .gt (fun a b => b < a)
  | le : Relates .le (fun a b => a ≤ b)
  | ge : Relates .ge (fun a b => b ≤ a)

variable {b : Builtin} {rel : Int → Int → Prop} {u v w : Numeral} {ns : List Numeral}

theorem Relates.ne_eq (h : b.Relates rel) : b ≠ eq := by
  cases h <;> nofun

theorem Relates.holds_iff (h : b.Relates rel) (m n : Int) :
    b.holds (compare m n) = true ↔ rel m n := by
  rcases Int.lt_trichotomy m n with less | rfl | more
  · rw [compare_lt_iff_lt.2 less]
    cases h <;> simp [holds] <;> omega
  · rw [compare_eq_iff_eq.2 rfl]
    cases h <;> simp [holds]
  · rw [compare_gt_iff_gt.2 more]
    cases h <;> simp [holds] <;> omega

theorem order?_float {x y : Float} (hx : x.isNaN = false) (hy : y.isNaN = false) :
    (if x < y then some .lt else if x == y then some .eq else if y < x then some .gt else none) =
      some (compare (Binary64.rank x) (Binary64.rank y)) := by
  have below := lt_iff_rank_lt hx hy
  have above := lt_iff_rank_lt hy hx
  have equal := beq_iff_rank_eq hx hy
  rcases Int.lt_trichotomy (Binary64.rank x) (Binary64.rank y) with less | same | more
  · rw [if_pos (below.2 less), compare_lt_iff_lt.2 less]
  · rw [if_neg (mt below.1 (by omega)), if_pos (equal.2 same), compare_eq_iff_eq.2 same]
  · rw [if_neg (mt below.1 (by omega)), if_neg (mt equal.1 (by omega)), if_pos (above.2 more),
      compare_gt_iff_gt.2 more]

/-- A comparison by order holds for two numbers when its relation does. -/
theorem related_iff (h : b.Relates rel) (hv : v.IsNumber) (hw : w.IsNumber) :
    b.related v w = true ↔ v.Ordered rel w := by
  have floats := order?_float hv.isNaN_toFloat hw.isNaN_toFloat
  rw [related, if_neg h.ne_eq]
  cases v with
  | int m =>
    cases w with
    | int n => exact h.holds_iff m.toInt n.toInt
    | float y =>
      rw [order?, floats]
      · exact h.holds_iff _ _
      · nofun
  | float x =>
    rw [order?, floats]
    · exact h.holds_iff _ _
    · nofun

theorem isChain_iff_neighbours {α : Type} {related : α → α → Bool} {xs : List α} :
    neighbours related xs = true ↔ xs.IsChain (fun x y => related x y = true) := by
  fun_induction neighbours related xs with
  | case1 x y rest ih => rw [Bool.and_eq_true, ih, List.isChain_cons_cons]
  | case2 xs short =>
    match xs with
    | [] | [x] => simp
    | x :: y :: rest => exact absurd rfl (short x y rest)

theorem neighbours_map {α β : Type} (related : β → β → Bool) (f : α → β) (xs : List α) :
    neighbours related (xs.map f) = neighbours (fun x y => related (f x) (f y)) xs := by
  rw [Bool.eq_iff_iff, isChain_iff_neighbours, isChain_iff_neighbours, List.isChain_map]

/-- A comparison of numbers compares the neighbours. -/
theorem call_numbers (comparison : b ∈ [eq, lt, gt, le, ge]) (nonempty : ns ≠ []) :
    b.call (ns.map Numeral.value) = .ok (.bool (neighbours b.related ns)) := by
  obtain ⟨v, rest, rfl⟩ := List.exists_cons_of_ne_nil nonempty
  have chain : b.compareChain ((v :: rest).map Numeral.value) =
      .ok (.bool (neighbours (fun v w => ((order? v w).map b.holds).getD false) (v :: rest))) := by
    rw [compareChain, numerals_map_value]
    rfl
  cases b with
  | eq =>
    have equal : Builtin.eq.related = fun v w => v.value.same w.value := rfl
    rw [equal, ← neighbours_map]
    rfl
  | lt | gt | le | ge => exact chain
  | _ => simp at comparison

theorem call_pair (comparison : b ∈ [eq, lt, gt, le, ge]) :
    b.call [v.value, w.value] = .ok (.bool true) ↔ b.related v w = true := by
  have call := call_numbers comparison (List.cons_ne_nil v [w])
  rw [List.map_cons, List.map_cons, List.map_nil] at call
  rw [call, neighbours, neighbours, Bool.and_true, Except.ok.injEq, Value.bool.injEq]
  nofun

/-! ## Chains -/

/-- A transitive relation between neighbours holds between the ends. -/
theorem ends_of_isChain {α : Type} {R : α → α → Prop} {x y : α} {between : List α}
    (chain : (x :: (between ++ [y])).IsChain R) (trans : ∀ {x y z}, R x y → R y z → R x z) :
    R x y := by
  have : Trans R R R := ⟨trans⟩
  exact (List.pairwise_cons.1 (List.isChain_iff_pairwise.1 chain)).1 y (by simp)

theorem related_eq_trans (first : related eq u v = true) (second : related eq v w = true) :
    related eq u w = true := by
  cases u with
  | int m =>
    cases v with
    | int n =>
      cases eq_of_beq (α := Int64) first
      exact second
    | float y => cases first
  | float x =>
    cases v with
    | int n => cases first
    | float y =>
      cases w with
      | int k => cases second
      | float z => exact BEq.trans (α := Float) first second

/-- The integers are the same among floats, and a float stands between them. -/
inductive Blurred : Numeral → List Numeral → Numeral → Prop
  | intro {m n : Int64} {between : List Numeral} {x : Float} (mem : .float x ∈ between)
    (alike : (Numeral.int m).toFloat == (Numeral.int n).toFloat) :
    Blurred (.int m) between (.int n)

theorem Blurred.symm {between : List Numeral} (h : Blurred v between w) :
    Blurred w between.reverse v := by
  cases h with
  | intro mem alike => exact .intro (List.mem_reverse.2 mem) (BEq.symm alike)

/-- Among integers alone, the last is at least the first if none is less than
    the one before it. -/
theorem le_of_isChain {m n : Int64} {between : List Numeral}
    (unseparated : ∀ x, .float x ∉ between)
    (chain : (.int m :: (between ++ [.int n])).IsChain (Numeral.Ordered (· ≤ ·))) :
    m.toInt ≤ n.toInt := by
  have integers : ∀ v ∈ .int m :: (between ++ [.int n]), ∃ k, v = .int k := by
    intro v mem
    cases v with
    | int k => exact ⟨k, rfl⟩
    | float x => exact absurd (by simpa using mem) (unseparated x)
  have exactly : (Numeral.int m :: (between ++ [.int n])).IsChain
      (fun v w => ∃ j k, v = .int j ∧ w = .int k ∧ j.toInt ≤ k.toInt) := by
    refine chain.imp_of_mem_imp fun v w hv hw ordered => ?_
    obtain ⟨j, rfl⟩ := integers v hv
    obtain ⟨k, rfl⟩ := integers w hw
    exact ⟨j, k, rfl, rfl, ordered⟩
  obtain ⟨_, _, ⟨⟩, ⟨⟩, le⟩ := ends_of_isChain exactly (by
    rintro _ _ _ ⟨i, j, rfl, rfl, first⟩ ⟨_, k, ⟨⟩, rfl, second⟩
    exact ⟨i, k, rfl, rfl, Int.le_trans first second⟩)
  exact le

/-- Numbers that do not fall leave the last one at least as high as the first,
    unless both are integers that floats cannot tell apart. -/
theorem ordered_or_blurred {between : List Numeral}
    (chain : (v :: (between ++ [w])).IsChain (Numeral.Ordered (· ≤ ·))) :
    v.Ordered (· ≤ ·) w ∨ Blurred v between w := by
  have ranks : v.rank ≤ w.rank :=
    ends_of_isChain (R := fun v w => v.rank ≤ w.rank)
      (chain.imp fun _ _ => Numeral.Ordered.rank_le) Int.le_trans
  -- Nearest floats that differ settle the order; only equal ones can hide that integers fall.
  rcases Int.lt_or_eq_of_le ranks with less | same
  · exact .inl (Numeral.ordered_of_rank_lt less).le
  match v, w with
  | .float x, w => exact .inl ranks
  | .int m, .float y => exact .inl ranks
  | .int m, .int n =>
    by_cases separated : ∃ x, .float x ∈ between
    · obtain ⟨x, mem⟩ := separated
      exact .inr (.intro mem ((beq_iff_rank_eq (isNaN_ofInt _) (isNaN_ofInt _)).2 same))
    · exact .inl (le_of_isChain (not_exists.1 separated) chain)

theorem related_or_blurred (comparison : b ∈ [eq, lt, gt, le, ge]) {between : List Numeral}
    (numbers : ∀ u ∈ v :: (between ++ [w]), u.IsNumber)
    (chain : (v :: (between ++ [w])).IsChain fun u v => b.related u v = true) :
    b.related v w = true ∨ (b = le ∨ b = ge) ∧ Blurred v between w := by
  have hv := numbers v (by simp)
  have hw := numbers w (by simp)
  have ordered : ∀ {rel}, b.Relates rel → (v :: (between ++ [w])).IsChain (Numeral.Ordered rel) :=
    fun h => chain.imp_of_mem_imp fun u v hu hv => (related_iff h (numbers u hu) (numbers v hv)).1
  cases b with
  | eq =>
    exact .inl (ends_of_isChain (R := fun u v => related eq u v = true) chain related_eq_trans)
  | lt =>
    exact .inl ((related_iff .lt hv hw).2 (ends_of_isChain (ordered .lt) Numeral.Ordered.trans))
  | gt =>
    have falling : v.Ordered (fun a b => b < a) w := by
      refine ends_of_isChain (ordered .gt) ?_
      intro u v w first second
      rw [Numeral.ordered_flip] at first second ⊢
      exact second.trans first
    exact .inl ((related_iff .gt hv hw).2 falling)
  | le =>
    rcases ordered_or_blurred (ordered .le) with first | blurred
    · exact .inl ((related_iff .le hv hw).2 first)
    · exact .inr ⟨.inl rfl, blurred⟩
  | ge =>
    have rising : (w :: (between.reverse ++ [v])).IsChain (Numeral.Ordered (· ≤ ·)) := by
      have := List.isChain_reverse.2 ((ordered .ge).imp fun _ _ => Numeral.ordered_flip.1)
      simpa using this
    rcases ordered_or_blurred rising with first | blurred
    · exact .inl ((related_iff .ge hv hw).2 (Numeral.ordered_flip.2 first))
    · exact .inr ⟨.inr rfl, by simpa using blurred.symm⟩
  | _ => simp at comparison

/-- A chained comparison holds when the comparison holds for all pairs, where
    `<=` and `>=` do not look at integers that floats blur. -/
theorem call_comparison (comparison : b ∈ [eq, lt, gt, le, ge]) (nonempty : ns ≠ [])
    (numbers : ∀ v ∈ ns, v.IsNumber) :
    ∃ r, b.call (ns.map Numeral.value) = .ok (.bool r) ∧
      (r = true ↔ ∀ before v between w after, ns = before ++ v :: (between ++ w :: after) →
        b.call [v.value, w.value] = .ok (.bool true) ∨
          (b = le ∨ b = ge) ∧ Blurred v between w) := by
  refine ⟨_, call_numbers comparison nonempty, ?_⟩
  rw [isChain_iff_neighbours]
  constructor
  · rintro chain before v between w after rfl
    have inside : v :: (between ++ [w]) <:+: before ++ v :: (between ++ w :: after) :=
      ⟨before, after, by simp⟩
    have part := List.IsChain.infix chain inside
    rw [call_pair comparison]
    exact related_or_blurred comparison (fun u mem => numbers u (inside.subset mem)) part
  · intro pairs
    rw [List.isChain_iff_forall_rel_of_append_cons_cons]
    intro v w before after split
    rcases pairs before v [] w after split with related | ⟨-, blurred⟩
    · exact (call_pair comparison).1 related
    · cases blurred with
      | intro mem => cases mem

theorem call_comparison_rising :
    Builtin.lt ∈ [eq, lt, gt, le, ge] ∧ [Numeral.int 1, .float (ofInt 2), .int 3] ≠ [] ∧
    (∀ v ∈ [Numeral.int 1, .float (ofInt 2), .int 3], v.IsNumber) ∧
    Builtin.lt.call [.int 1, .float (ofInt 2), .int 3] = .ok (.bool true) ∧
    Builtin.lt.call [.int 1, .int 3] = .ok (.bool true) := by
  have comparison : Builtin.lt ∈ [eq, lt, gt, le, ge] := by decide
  have nonempty : [Numeral.int 1, .float (ofInt 2), .int 3] ≠ [] := nofun
  have numbers : ∀ v ∈ [Numeral.int 1, .float (ofInt 2), .int 3], v.IsNumber := by
    have middle : (Numeral.float (ofInt 2)).IsNumber := by
      intro x same
      rw [← Numeral.float.inj same]
      exact isNaN_ofInt 2
    exact List.forall_mem_cons.2
      ⟨nofun, List.forall_mem_cons.2 ⟨middle, List.forall_mem_singleton.2 nofun⟩⟩
  obtain ⟨r, call, pairs⟩ := call_comparison comparison nonempty numbers
  have rising : neighbours Builtin.lt.related [.int 1, .float (ofInt 2), .int 3] = true := by
    decide +kernel
  have rises := call_numbers comparison nonempty
  rw [rising] at rises
  cases call.symm.trans rises
  refine ⟨comparison, nonempty, numbers, call, ?_⟩
  rcases pairs.1 rfl [] (.int 1) [.float (ofInt 2)] (.int 3) [] rfl with ends | ⟨⟨⟨⟩⟩ | ⟨⟨⟩⟩, -⟩
  exact ends

/-- A float between two integers hides that they fall. -/
theorem le_through_float :
    (ofInt 9007199254740992).isNaN = false ∧
    Builtin.le.call [.int 9007199254740993, .float (ofInt 9007199254740992),
      .int 9007199254740992] = .ok (.bool true) ∧
    Builtin.le.call [.int 9007199254740993, .int 9007199254740992] = .ok (.bool false) := by
  have rising : neighbours Builtin.le.related [.int 9007199254740993,
      .float (ofInt 9007199254740992), .int 9007199254740992] = true := by decide +kernel
  refine ⟨isNaN_ofInt _, ?_, rfl⟩
  have call := call_numbers (b := le) (by decide) (List.cons_ne_nil (Numeral.int 9007199254740993)
    [.float (ofInt 9007199254740992), .int 9007199254740992])
  rw [rising] at call
  exact call

end Builtin

end Stepper.Eval
