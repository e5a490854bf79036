/-
  Printed floats.

  Below 10^16 the text of a float is a float literal that is read as the same
  float.  A larger float is a whole number; its text has no point, and to the
  reader it is an integer, or one that is out of range (`reading_showFloat`).
-/
import Stepper.Proofs.Number.Shortest
import Stepper.Proofs.Syntax.Printing

namespace Stepper.Syntax

open Stepper.Number

variable {kind : TokenKind} {text ds : List Char} {d : Decimal} {x : Float} {negative : Bool}
  {m k n : Nat}

/-! ## Sources of one token -/

/-- A number by itself is a single token, and read as this token is. -/
theorem readForm_of_lexeme (lexeme : Lexeme kind text)
    (number : kind = .integer ∨ kind = .float) :
    readForm (.ofList text) = (Token.atom ⟨kind, .ofList text, 0⟩).mapError
      (⟨·, ⟨0, (String.ofList text).utf8ByteSize⟩⟩) := by
  have counts : kind.isTrivia = false := by rcases number with rfl | rfl <;> rfl
  have other : kind ≠ .symbol := by rcases number with rfl | rfl <;> nofun
  have ends : kind.EndsBefore [] := by rcases number with rfl | rfl <;> nofun
  obtain ⟨start', tokens⟩ := significantFrom_of_mark 0 [] lexeme ends counts other
  have nothing : significantFrom start' [] = [] := rfl
  rw [List.append_nil, nothing, ← significant_ofList] at tokens
  have step : Progress.stepUnlessDone .start ⟨kind, .ofList text, 0⟩ =
      ((Token.atom ⟨kind, .ofList text, 0⟩).map (deliver [] [])).mapError
        (⟨·, Token.range ⟨kind, .ofList text, 0⟩⟩) := by
    rcases number with rfl | rfl <;> rfl
  have range : Token.range ⟨kind, .ofList text, 0⟩ = ⟨0, (String.ofList text).utf8ByteSize⟩ := by
    rw [Token.range, Token.size, Nat.zero_add]
  rw [range] at step
  rw [readForm, tokens]
  cases read : Token.atom ⟨kind, .ofList text, 0⟩ with
  | error fault =>
    rw [read] at step
    rw [foldlM_cons_error step]
    rfl
  | ok form =>
    rw [read] at step
    rw [foldlM_cons_ok step]
    rfl

/-! ## Texts with a point -/

/-- The text is a row of digits with a point in it, and the decimal its value. -/
inductive Writes : List Char → Decimal → Prop
  | pointed {before after} (whole : Digits before) (fraction : Digits after) :
    Writes (before ++ '.' :: after) ⟨naturalOf (before ++ after), -(after.length : Int)⟩

theorem writes_of_eq {before after : List Char} (whole : Digits before)
    (fraction : Digits after) (digits : naturalOf (before ++ after) = d.digits)
    (places : -(after.length : Int) = d.exponent) : Writes (before ++ '.' :: after) d := by
  obtain ⟨_, _⟩ := d
  cases digits
  cases places
  exact .pointed whole fraction

/-- A text with a point is read as the float nearest to its value. -/
theorem Writes.readForm (h : Writes text d) (negative : Bool) :
    readForm (.ofList (signed negative text)) = .ok (.float (floatOfDecimal negative d)) := by
  cases h with
  | @pointed before after whole fraction =>
    have lexeme : Lexeme .float (signed negative (before ++ '.' :: (after ++ []))) := by
      obtain ⟨minus, atMost, text⟩ := exists_minus negative (before ++ '.' :: (after ++ []))
      rw [text]
      exact .float atMost whole fraction .none
    have read := readFloat?_signed whole fraction .none negative
    rw [List.append_nil] at lexeme read
    rw [readForm_of_lexeme lexeme (.inr rfl), Token.atom]
    simp only [String.toList_ofList, read]
    simp [readExponent?, Except.mapError]

/-- A row of digits is read as an integer if this fits into 64 bits. -/
theorem readForm_of_digits (digits : Digits ds) (negative : Bool) :
    readForm (.ofList (signed negative ds)) =
      match fit? (integerOf (signed negative ds)) with
      | some i => .ok (.int i)
      | none => .error ⟨.integerRange, ⟨0, (String.ofList (signed negative ds)).utf8ByteSize⟩⟩ := by
  have lexeme := lexeme_signed digits negative
  rw [readForm_of_lexeme lexeme (.inl rfl), Token.atom]
  simp only [String.toList_ofList, readInteger?_eq lexeme]
  cases fit? (integerOf (signed negative ds)) with
  | none => rfl
  | some i => rfl

/-! ## Digits in their places -/

theorem digit_of_mem_zeros {c : Char} (mem : c ∈ zeros n) : CharClass.digit c = true := by
  rw [List.eq_of_mem_replicate mem]
  rfl

theorem Digits.append_zeros (digits : Digits ds) (n : Nat) : Digits (ds ++ zeros n) := by
  refine ⟨List.append_ne_nil_of_left_ne_nil digits.1 _, ?_⟩
  intro c mem
  exact (List.mem_append.1 mem).elim (digits.2 c) digit_of_mem_zeros

theorem Digits.zeros_append (digits : Digits ds) (n : Nat) : Digits (zeros n ++ ds) := by
  refine ⟨List.append_ne_nil_of_right_ne_nil _ digits.1, ?_⟩
  intro c mem
  exact (List.mem_append.1 mem).elim digit_of_mem_zeros (digits.2 c)

theorem Digits.take (digits : Digits ds) (positive : 0 < n) : Digits (ds.take n) := by
  refine ⟨?_, fun c mem => digits.2 c (List.mem_of_mem_take mem)⟩
  rw [ne_eq, List.take_eq_nil_iff]
  rintro (zero | empty)
  · omega
  · exact digits.1 empty

theorem Digits.drop (digits : Digits ds) (short : n < ds.length) : Digits (ds.drop n) := by
  refine ⟨?_, fun c mem => digits.2 c (List.mem_of_mem_drop mem)⟩
  rw [ne_eq, List.drop_eq_nil_iff]
  omega

/-- A decimal with places after the point is written with a point. -/
theorem writes_positional (fraction : d.exponent < 0) : Writes d.positional d := by
  have digits := digits_digitsOf d.digits
  have value := naturalOf_digitsOf d.digits
  unfold Decimal.positional
  generalize digitsOf d.digits = ds at digits value
  unfold pointed
  simp only
  -- The point lies before the digits or among them, since places remain after it.
  split
  · have zero : Digits ['0'] := ⟨List.cons_ne_nil _ _, List.forall_mem_singleton.2 rfl⟩
    generalize shift : (-(ds.length + d.exponent : Int)).toNat = n
    have text : '0' :: '.' :: zeros n ++ ds = ['0'] ++ '.' :: (zeros n ++ ds) := rfl
    have leading : naturalOf (['0'] ++ (zeros n ++ ds)) = naturalOf ds :=
      naturalOf_zeros_append (n + 1) ds
    rw [text]
    refine writes_of_eq zero (digits.zeros_append n) (leading.trans value) ?_
    rw [List.length_append, zeros, List.length_replicate]
    omega
  split
  · rename_i inside
    refine writes_of_eq (digits.take (by omega)) (digits.drop (by omega)) ?_ ?_
    · rw [List.take_append_drop, value]
    · rw [List.length_drop]
      omega
  · omega

/-- Other decimals are written without one. -/
theorem digits_positional (whole : 0 ≤ d.exponent) :
    Digits d.positional ∧ naturalOf d.positional = d.num ∧ d.den = 1 := by
  obtain ⟨digits, exponent⟩ := d
  obtain ⟨e, rfl⟩ := Int.eq_ofNat_of_zero_le whole
  have text : Decimal.positional ⟨digits, e⟩ = digitsOf digits ++ zeros e := by
    have first := length_digitsOf_pos digits
    have point : ((digitsOf digits).length + e : Int).toNat - (digitsOf digits).length = e := by
      omega
    simp only [Decimal.positional]
    rw [pointed, if_neg (by omega), if_neg (by omega), point]
  rw [text, naturalOf_append_zeros, naturalOf_digitsOf]
  exact ⟨(digits_digitsOf digits).append_zeros e, rfl, rfl⟩

/-- A whole number is written with a zero after the point. -/
theorem writes_whole (n : Nat) : Writes (digitsOf n ++ ['.', '0']) ⟨n * 10, -1⟩ := by
  have zero : Digits ['0'] := ⟨List.cons_ne_nil _ _, List.forall_mem_singleton.2 rfl⟩
  refine writes_of_eq (digits_digitsOf n) zero ?_ rfl
  have shifted := naturalOf_append_zeros (digitsOf n) 1
  rwa [naturalOf_digitsOf] at shifted

/-! ## Magnitudes -/

theorem showMagnitude_of_small (whole : whole? m k = some n) (small : n < pow10 16) :
    showMagnitude m k = digitsOf n ++ ['.', '0'] := by
  simp only [showMagnitude, whole]
  rw [if_pos small]

theorem showMagnitude_of_large (whole : whole? m k = some n) (large : pow10 16 ≤ n) :
    showMagnitude m k = (shortest .upper m k).positional := by
  simp only [showMagnitude, whole]
  rw [if_neg (Nat.not_lt.2 large)]

theorem showMagnitude_of_fraction (fraction : whole? m k = none) :
    showMagnitude m k = (shortest .upper m k).positional := by
  simp only [showMagnitude, fraction]

/-- Below 10^16 there is a point in the text, and the text stands for the float. -/
theorem exists_writes_showMagnitude (parts : Binary64.parts x = .finite negative m k)
    (small : m * pow2 k < pow10 16 * pow2 1074) :
    ∃ d, Writes (showMagnitude m k) d ∧ floatOfDecimal negative d = x := by
  have magnitude := Binary64.magnitude_of_parts parts
  cases whole : whole? m k with
  | some n =>
    have below : n < pow10 16 := by
      rw [units_of_whole? whole] at small
      exact Nat.lt_of_mul_lt_mul_right small
    rw [showMagnitude_of_small whole below]
    exact ⟨_, writes_whole n, floatOfDecimal_whole parts whole⟩
  | none =>
    have nonzero : 0 < m := by
      refine Nat.pos_of_ne_zero fun zero => ?_
      rw [zero, whole?_zero] at whole
      cases whole
    rw [showMagnitude_of_fraction whole]
    exact ⟨_, writes_positional (exponent_shortest_neg magnitude nonzero whole),
      Decimal.floatOfDecimal_of_near parts nonzero (near_shortest magnitude nonzero)⟩

/-- From 10^16 on there is none, and the text stands for an integer next to the float. -/
theorem digits_showMagnitude (magnitude : Magnitude m k)
    (large : pow10 16 * pow2 1074 ≤ m * pow2 k) (nonzero : 0 < m) :
    Digits (showMagnitude m k) ∧ Near (naturalOf (showMagnitude m k)) 1 m k := by
  obtain ⟨n, whole, above⟩ := exists_whole_of_large magnitude large
  have exponent : 0 ≤ (shortest .upper m k).exponent :=
    exponent_shortest_nonneg magnitude nonzero whole
  obtain ⟨digits, value, unit⟩ := digits_positional exponent
  have near : (shortest .upper m k).Near m k := near_shortest magnitude nonzero
  rw [Decimal.Near, unit] at near
  rw [showMagnitude_of_large whole above, value]
  exact ⟨digits, near⟩

/-! ## Floats -/

/-- The float is finite, and its magnitude 10^16 or more. -/
def IsLarge (x : Float) : Prop :=
  match Binary64.parts x with
  | .finite _ m k => pow10 16 * pow2 1074 ≤ m * pow2 k
  | _ => False

instance (x : Float) : Decidable (IsLarge x) :=
  match parts : Binary64.parts x with
  | .finite _ m k =>
    decidable_of_iff (pow10 16 * pow2 1074 ≤ m * pow2 k) (by rw [IsLarge, parts])
  | .nan | .infinite _ => .isFalse (by rw [IsLarge, parts]; exact id)

theorem isLarge_iff (parts : Binary64.parts x = .finite negative m k) :
    IsLarge x ↔ pow10 16 * pow2 1074 ≤ m * pow2 k := by
  rw [IsLarge, parts]

theorem showFloat_of_parts (parts : Binary64.parts x = .finite negative m k) :
    showFloat x = .ofList (signed negative (showMagnitude m k)) := by
  rw [showFloat, parts]

/-- The text of a finite float, read as a form. -/
theorem reading_showFloat (finite : x.isFinite = true) :
    (¬ IsLarge x → readForm (showFloat x) = .ok (.float x)) ∧
    (IsLarge x → ∃ n : Int, Binary64.ofInt n = x ∧ readForm (showFloat x) =
      match fit? n with
      | some i => .ok (.int i)
      | none => .error ⟨.integerRange, ⟨0, (showFloat x).utf8ByteSize⟩⟩) := by
  obtain ⟨negative, m, k, parts⟩ := Binary64.exists_parts finite
  rw [showFloat_of_parts parts, isLarge_iff parts]
  constructor
  · intro small
    obtain ⟨d, writes, value⟩ := exists_writes_showMagnitude parts (Nat.not_le.1 small)
    rw [writes.readForm, value]
  · intro large
    have nonzero : 0 < m := by
      refine Nat.pos_of_ne_zero fun zero => ?_
      have := Nat.mul_pos (pow10_pos 16) (pow2_pos 1074)
      rw [zero, Nat.zero_mul] at large
      omega
    obtain ⟨digits, near⟩ :=
      digits_showMagnitude (Binary64.magnitude_of_parts parts) large nonzero
    refine ⟨_, ?_, readForm_of_digits digits negative⟩
    rw [integerOf_signed digits]
    exact ofInt_of_near parts nonzero near

theorem reading_showFloat_samples :
    readForm (showFloat (Binary64.ofRatio true 1 3)) = .ok (.float (Binary64.ofRatio true 1 3)) ∧
    ∃ n : Int, Binary64.ofInt n = Binary64.ofInt 10000000000000000000000 ∧
      readForm (showFloat (Binary64.ofInt 10000000000000000000000)) =
        match fit? n with
        | some i => .ok (.int i)
        | none => .error ⟨.integerRange,
          ⟨0, (showFloat (Binary64.ofInt 10000000000000000000000)).utf8ByteSize⟩⟩ := by
  have third : (Binary64.ofRatio true 1 3).isFinite = true := by decide +kernel
  have power : (Binary64.ofInt 10000000000000000000000).isFinite = true := by decide +kernel
  exact ⟨(reading_showFloat third).1 (by decide +kernel),
    (reading_showFloat power).2 (by decide +kernel)⟩

/-- The text of 10^16 is read as an integer, and that of 10^19 not at all. -/
theorem large_not_float :
    (Binary64.ofInt 10000000000000000).isFinite = true ∧
    readForm (showFloat (Binary64.ofInt 10000000000000000)) = .ok (.int 10000000000000000) ∧
    (Binary64.ofInt 10000000000000000000).isFinite = true ∧
    readForm (showFloat (Binary64.ofInt 10000000000000000000)) =
      .error ⟨.integerRange, ⟨0, 20⟩⟩ := by
  have fits : showFloat (Binary64.ofInt 10000000000000000) = "10000000000000000" := by
    decide +kernel
  have exceeds : showFloat (Binary64.ofInt 10000000000000000000) = "10000000000000000000" := by
    decide +kernel
  rw [fits, exceeds]
  exact ⟨by decide +kernel, rfl, by decide +kernel, rfl⟩

end Stepper.Syntax
