/-
  Reading JSON that was written.

  What is written without loss (`Exact`) is read back as it was
  (`parse?_print`): every part of it is read back whatever follows, as long as
  that does not go on with a number (`Reads`).
-/
import Stepper.Json.Reader
import Stepper.Proofs.Number.Digits

namespace Stepper.Json

open Stepper.Number Reader

/-- The value is written without loss and nested at most so deep: there are no
    floats in it, and its numbers fit into 64 bits. -/
inductive Exact : Nat → Json → Prop
  | null {room} : Exact room .null
  | bool {room} (b : Bool) : Exact room (.bool b)
  | natural {room n} (small : n < UInt64.size) : Exact room (.number (.natural n))
  | negative {room n} (below : n < 0) (small : Int64.minValue.toInt ≤ n) :
    Exact room (.number (.negative n))
  | string {room} (s : String) : Exact room (.string s)
  | array {room items} (each : ∀ item ∈ items, Exact room item) : Exact (room + 1) (.array items)
  | object {room fields} (each : ∀ field ∈ fields, Exact room field.2) :
    Exact (room + 1) (.object fields)

/-! ## Strings -/

theorem unit?_control {n : Nat} (small : n < 0x20) :
    unit? '0' '0' (hexDigit (n / 16)) (hexDigit (n % 16)) = some n := by
  revert n
  decide

/-- A character is read back from its escape. -/
theorem stringBody_escape (c : Char) (cs : List Char) :
    stringBody (escape c ++ cs) = prepend c (stringBody cs) := by
  unfold escape
  split
  case h_8 =>
    split
    · rename_i control
      have unit : single? c.toNat = some c := by
        rw [single?, if_neg (by omega), Char.ofNat_toNat]
      simp only [List.cons_append, List.nil_append, stringBody, unit?_control control, unit]
    · rename_i plain
      have other : ¬ (c.toNat < 0x20 ∨ c = '\\') := by simp_all
      rw [List.singleton_append, stringBody, if_neg other]
      all_goals simp_all
  all_goals rfl

/-- A string is read back. -/
theorem stringBody_quoted (s rest : List Char) :
    stringBody (s.flatMap escape ++ '"' :: rest) = some (s, rest) := by
  induction s with
  | nil => rfl
  | cons c s ih =>
    rw [List.flatMap_cons, List.append_assoc, stringBody_escape, ih]
    rfl

theorem string_quoted (s : String) (rest : List Char) :
    Reader.string (s.toList.flatMap escape ++ '"' :: rest) = some (s, rest) := by
  simp [Reader.string, stringBody_quoted]

/-! ## Numbers -/

/-- The text does not go on with a number. -/
def Stops (rest : List Char) : Prop :=
  ∀ c ∈ rest.head?, c.isDigit = false ∧ c ≠ '.' ∧ c ≠ 'e' ∧ c ≠ 'E'

variable {rest : List Char}

theorem digits_digitsOf (n : Nat) (stops : Stops rest) :
    digits (digitsOf n ++ rest) = some (digitsOf n, rest) := by
  have inside : ∀ c ∈ digitsOf n, c.isDigit = true := fun c => isDigit_of_mem_digitsOf
  have after : rest.takeWhile Char.isDigit = [] ∧ rest.dropWhile Char.isDigit = rest := by
    cases rest with
    | nil => exact ⟨rfl, rfl⟩
    | cons c cs =>
      have other : c.isDigit = false := (stops c rfl).1
      exact ⟨List.takeWhile_cons_of_neg (by simp [other]),
        List.dropWhile_cons_of_neg (by simp [other])⟩
  have nonempty := digitsOf_ne_nil n
  simp [digits, List.takeWhile_append_of_pos inside, List.dropWhile_append_of_pos inside, after.1,
    after.2, nonempty]

theorem wholePart_digitsOf (n : Nat) (stops : Stops rest) :
    wholePart (digitsOf n ++ rest) = some (digitsOf n, rest) := by
  by_cases zero : n = 0
  · subst zero
    cases rest with
    | nil => rfl
    | cons c cs =>
      have other : c.isDigit = false := (stops c rfl).1
      have text : digitsOf 0 = ['0'] := rfl
      simp [wholePart, text, other]
  · have lead := head?_digitsOf (Nat.pos_of_ne_zero zero)
    have read := digits_digitsOf n stops
    obtain ⟨d, ds, text⟩ := List.exists_cons_of_ne_nil (digitsOf_ne_nil n)
    rw [text] at lead read ⊢
    have other : d ≠ '0' := by simpa using lead
    rw [List.cons_append] at read ⊢
    rw [wholePart, read]
    intro c cs same
    exact other (List.cons.inj same).1

theorem fraction_of_stops (stops : Stops rest) : fraction rest = some (none, rest) := by
  cases rest with
  | nil => rfl
  | cons c cs =>
    rw [fraction]
    rintro cs' ⟨⟩
    exact (stops '.' rfl).2.1 rfl

theorem exponent_of_stops (stops : Stops rest) : exponent rest = some (none, rest) := by
  cases rest with
  | nil => rfl
  | cons c cs =>
    obtain ⟨-, -, lower, upper⟩ := stops c rfl
    simp [exponent, lower, upper]

/-- A whole number is read back, without a sign or with one. -/
theorem number_digitsOf {n : Nat} {m : Json.Number} (negative : Bool)
    (fits : numberOf negative (digitsOf n) none none = some m) (stops : Stops rest) :
    Reader.number (signed negative (digitsOf n) ++ rest) = some (m, rest) := by
  have whole := wholePart_digitsOf n stops
  cases negative with
  | true =>
    simp [Reader.number, signed, whole, fraction_of_stops stops, exponent_of_stops stops, fits]
  | false =>
    have split : ∀ cs, digitsOf n ++ rest ≠ '-' :: cs := by
      obtain ⟨d, ds, text⟩ := List.exists_cons_of_ne_nil (digitsOf_ne_nil n)
      intro cs same
      rw [text] at same
      have digit : d.isDigit = true := isDigit_of_mem_digitsOf (n := n) (by rw [text]; exact .head ds)
      rw [(List.cons.inj same).1] at digit
      cases digit
    simp [Reader.number, signed, whole, fraction_of_stops stops, exponent_of_stops stops, fits]

theorem numberOf_natural {n : Nat} (small : n < UInt64.size) :
    numberOf false (digitsOf n) none none = some (.natural n) := by
  simp [numberOf, naturalOf_digitsOf, small]

theorem numberOf_negative {n : Int} (below : n < 0) (small : Int64.minValue.toInt ≤ n) :
    numberOf true (digitsOf n.natAbs) none none = some (.negative n) := by
  have value : -(n.natAbs : Int) = n := by omega
  have positive : 0 < n.natAbs := by omega
  simp only [numberOf, naturalOf_digitsOf, value, Option.isNone_none, Bool.and_self, Bool.not_true,
    Bool.and_false, Bool.false_and, positive, small, decide_true, if_true,
    Bool.false_eq_true, if_false]

/-! ## Values -/

/-- Whatever follows, the value is read back from its text, if there is room
    for its nesting. -/
def Reads (room : Nat) (v : Json) : Prop :=
  ∀ fuel rest, v.chars.length < fuel → Stops rest →
    Reader.value fuel room (v.chars ++ rest) = some (v, rest)

/-- The text starts with something that is no blank and closes nothing. -/
def Starts (text : List Char) : Prop :=
  ∃ c cs, text = c :: cs ∧ isBlank c = false ∧ c ≠ ']' ∧ c ≠ '\x7d'

theorem skipBlanks_of_not_blank {c : Char} (dark : isBlank c = false) (cs : List Char) :
    skipBlanks (c :: cs) = c :: cs :=
  List.dropWhile_cons_of_neg (by simp [dark])

theorem isBlank_of_isDigit {c : Char} (digit : c.isDigit = true) : isBlank c = false := by
  rw [Bool.eq_false_iff]
  intro blank
  simp only [isBlank, decide_eq_true_eq, List.mem_cons, List.not_mem_nil, or_false] at blank
  rcases blank with rfl | rfl | rfl | rfl <;> cases digit

/-- A text that starts like a number is read as one. -/
theorem value_of_number {c : Char} {cs : List Char} (lead : c.isDigit = true ∨ c = '-')
    (fuel room : Nat) : Reader.value (fuel + 1) room (c :: cs) =
      (Reader.number (c :: cs)).map fun (n, rest) => (.number n, rest) := by
  have dark : isBlank c = false := by
    rcases lead with digit | rfl
    · exact isBlank_of_isDigit digit
    · rfl
  rw [Reader.value, skipBlanks_of_not_blank dark]
  split
  case h_7 => rfl
  all_goals
    rename_i same
    cases same
    exact absurd lead (by decide)

theorem exists_signed (negative : Bool) (n : Nat) : ∃ c cs, signed negative (digitsOf n) = c :: cs ∧
    (c.isDigit = true ∨ c = '-') := by
  cases negative with
  | true => exact ⟨'-', digitsOf n, rfl, .inr rfl⟩
  | false =>
    obtain ⟨d, ds, text⟩ := List.exists_cons_of_ne_nil (digitsOf_ne_nil n)
    have digit : d.isDigit = true := isDigit_of_mem_digitsOf (n := n) (by rw [text]; exact .head ds)
    exact ⟨d, ds, text, .inl digit⟩

theorem reads_number {n : Nat} {m : Json.Number} {room : Nat} (negative : Bool)
    (chars : m.chars = signed negative (digitsOf n))
    (fits : numberOf negative (digitsOf n) none none = some m) : Reads room (.number m) := by
  intro fuel rest long stops
  obtain ⟨fuel, rfl⟩ := Nat.exists_eq_succ_of_ne_zero (Nat.ne_of_gt (Nat.zero_lt_of_lt long))
  obtain ⟨c, cs, text, lead⟩ := exists_signed negative n
  have read := number_digitsOf negative fits stops
  rw [Json.chars, chars]
  rw [text, List.cons_append] at read ⊢
  rw [value_of_number lead, read]
  rfl

theorem stops_of_punctuation {c : Char} (mem : c ∈ [',', ']', '\x7d']) (cs : List Char) :
    Stops (c :: cs) := by
  simp only [List.mem_cons, List.not_mem_nil, or_false] at mem
  rintro _ ⟨⟩
  rcases mem with rfl | rfl | rfl <;> decide

variable {room fuel : Nat} {v : Json} {items : List Json} {fields : List (String × Json)}

theorem intercalate_each (v next : Json) (items : List Json) :
    [','].intercalate (charsEach (v :: next :: items)) =
      v.chars ++ ',' :: [','].intercalate (charsEach (next :: items)) := by
  simp [charsEach]

theorem intercalate_fields (name : String) (v : Json) (next : String × Json)
    (fields : List (String × Json)) :
    [','].intercalate (charsFields ((name, v) :: next :: fields)) =
      quoted name ++ ':' :: (v.chars ++ ',' :: [','].intercalate (charsFields (next :: fields))) := by
  simp [charsFields]

/-- The items of an array are read back up to its end. -/
theorem items_chars (nonempty : items ≠ []) (each : ∀ item ∈ items, Reads room item)
    (long : ([','].intercalate (charsEach items)).length + 1 < fuel) :
    Reader.items fuel room ([','].intercalate (charsEach items) ++ ']' :: rest) =
      some (items, rest) := by
  induction items generalizing fuel with
  | nil => exact absurd rfl nonempty
  | cons v items ih =>
    obtain ⟨fuel, rfl⟩ := Nat.exists_eq_succ_of_ne_zero (Nat.ne_of_gt (Nat.zero_lt_of_lt long))
    obtain ⟨first, others⟩ := List.forall_mem_cons.1 each
    cases items with
    | nil =>
      have text : [','].intercalate (charsEach [v]) = v.chars := by simp [charsEach]
      rw [text] at long ⊢
      have read := first fuel (']' :: rest) (by omega) (stops_of_punctuation (by decide) rest)
      simp [Reader.items, read, skipBlanks_of_not_blank (c := ']') rfl]
    | cons next items =>
      rw [intercalate_each] at long ⊢
      rw [List.length_append, List.length_cons] at long
      have read := first fuel (',' :: ([','].intercalate (charsEach (next :: items)) ++ ']' :: rest))
        (by omega) (stops_of_punctuation (by decide) _)
      have later := ih (List.cons_ne_nil next items) others (by omega : _ < fuel)
      rw [List.append_assoc, List.cons_append]
      simp [Reader.items, read, skipBlanks_of_not_blank (c := ',') rfl, later]

theorem expect_self {c : Char} (dark : isBlank c = false) (cs : List Char) :
    expect c (c :: cs) = some cs := by
  simp [expect, skipBlanks_of_not_blank dark]

/-- The fields of an object are read back up to its end. -/
theorem fields_chars (nonempty : fields ≠ []) (each : ∀ field ∈ fields, Reads room field.2)
    (long : ([','].intercalate (charsFields fields)).length + 1 < fuel) :
    Reader.fields fuel room ([','].intercalate (charsFields fields) ++ '\x7d' :: rest) =
      some (fields, rest) := by
  induction fields generalizing fuel with
  | nil => exact absurd rfl nonempty
  | cons field fields ih =>
    obtain ⟨name, v⟩ := field
    obtain ⟨fuel, rfl⟩ := Nat.exists_eq_succ_of_ne_zero (Nat.ne_of_gt (Nat.zero_lt_of_lt long))
    obtain ⟨(first : Reads room v), others⟩ := List.forall_mem_cons.1 each
    cases fields with
    | nil =>
      have text : [','].intercalate (charsFields [(name, v)]) = quoted name ++ ':' :: v.chars := by
        simp [charsFields]
      rw [text] at long ⊢
      rw [List.length_append, List.length_cons] at long
      have read := first fuel ('\x7d' :: rest) (by omega) (stops_of_punctuation (by decide) rest)
      simp [Reader.fields, quoted, expect_self, string_quoted, isBlank, read,
        skipBlanks_of_not_blank]
    | cons next fields =>
      rw [intercalate_fields] at long ⊢
      simp only [List.length_append, List.length_cons] at long
      have read := first fuel
        (',' :: ([','].intercalate (charsFields (next :: fields)) ++ '\x7d' :: rest))
        (by omega) (stops_of_punctuation (by decide) _)
      have later := ih (List.cons_ne_nil next fields) others (by omega : _ < fuel)
      simp [Reader.fields, quoted, expect_self, string_quoted, isBlank, read,
        skipBlanks_of_not_blank, later]

theorem Starts.append {text : List Char} (h : Starts text) (more : List Char) :
    Starts (text ++ more) := by
  obtain ⟨c, cs, rfl, dark⟩ := h
  exact ⟨c, cs ++ more, rfl, dark⟩

theorem starts_signed (negative : Bool) (n : Nat) : Starts (signed negative (digitsOf n)) := by
  obtain ⟨c, cs, text, digit | rfl⟩ := exists_signed negative n
  · refine ⟨c, cs, text, isBlank_of_isDigit digit, ?_, ?_⟩ <;>
      · rintro rfl
        cases digit
  · exact ⟨'-', cs, text, rfl, by decide, by decide⟩

theorem chars_negative {n : Int} (below : n < 0) :
    (Number.negative n).chars = signed true (digitsOf n.natAbs) := by
  rw [Number.chars, decide_eq_true below]

theorem Exact.starts (h : v.Exact room) : Starts v.chars := by
  cases h with
  | null => exact ⟨'n', _, rfl, by decide⟩
  | bool b => cases b <;> exact ⟨_, _, rfl, by decide⟩
  | natural => exact starts_signed false _
  | negative below =>
    rw [Json.chars, chars_negative below]
    exact starts_signed true _
  | string => exact ⟨'"', _, rfl, by decide⟩
  | array => exact ⟨'[', _, rfl, by decide⟩
  | object => exact ⟨'\x7b', _, rfl, by decide⟩

theorem value_array (nonempty : items ≠ []) (each : ∀ item ∈ items, Exact room item)
    (read : Reader.items fuel room ([','].intercalate (charsEach items) ++ ']' :: rest) =
      some (items, rest)) :
    Reader.value (fuel + 1) (room + 1) ((Json.array items).chars ++ rest) =
      some (.array items, rest) := by
  have starts : Starts ([','].intercalate (charsEach items)) := by
    cases items with
    | nil => exact absurd rfl nonempty
    | cons v items =>
      have first := (each v List.mem_cons_self).starts
      cases items with
      | nil => simpa [charsEach] using first
      | cons next items =>
        rw [intercalate_each]
        exact first.append _
  obtain ⟨c, cs, text, dark, other, -⟩ := starts
  rw [Json.chars, List.cons_append, List.cons_append, List.append_assoc, List.singleton_append]
  rw [text, List.cons_append] at read ⊢
  rw [Reader.value, skipBlanks_of_not_blank rfl]
  simp [skipBlanks_of_not_blank dark, other, read]

theorem value_object (nonempty : fields ≠ [])
    (read : Reader.fields fuel room ([','].intercalate (charsFields fields) ++ '\x7d' :: rest) =
      some (fields, rest)) :
    Reader.value (fuel + 1) (room + 1) ((Json.object fields).chars ++ rest) =
      some (.object fields, rest) := by
  obtain ⟨cs, text⟩ : ∃ cs, [','].intercalate (charsFields fields) = '"' :: cs := by
    cases fields with
    | nil => exact absurd rfl nonempty
    | cons field fields =>
      obtain ⟨name, v⟩ := field
      cases fields with
      | nil => exact ⟨_, by simp [charsFields, quoted]; rfl⟩
      | cons next fields =>
        rw [intercalate_fields, quoted]
        exact ⟨_, rfl⟩
  rw [Json.chars, List.cons_append, List.cons_append, List.append_assoc, List.singleton_append]
  rw [text, List.cons_append] at read ⊢
  rw [Reader.value, skipBlanks_of_not_blank rfl]
  simp [skipBlanks_of_not_blank (c := '"') rfl, read]

/-- What is written without loss is read back whatever follows. -/
theorem Exact.reads (h : v.Exact room) : Reads room v := by
  induction h with
  | natural small => exact reads_number false rfl (numberOf_natural small)
  | negative below small =>
    exact reads_number true (chars_negative below) (numberOf_negative below small)
  | null =>
    intro fuel rest long stops
    obtain ⟨fuel, rfl⟩ := Nat.exists_eq_succ_of_ne_zero (Nat.ne_of_gt (Nat.zero_lt_of_lt long))
    rfl
  | bool b =>
    intro fuel rest long stops
    obtain ⟨fuel, rfl⟩ := Nat.exists_eq_succ_of_ne_zero (Nat.ne_of_gt (Nat.zero_lt_of_lt long))
    cases b <;> rfl
  | string s =>
    intro fuel rest long stops
    obtain ⟨fuel, rfl⟩ := Nat.exists_eq_succ_of_ne_zero (Nat.ne_of_gt (Nat.zero_lt_of_lt long))
    rw [Json.chars, quoted, List.append_assoc]
    simp [Reader.value, skipBlanks_of_not_blank, isBlank, string_quoted]
  | @array room items each ih =>
    intro fuel rest long stops
    obtain ⟨fuel, rfl⟩ := Nat.exists_eq_succ_of_ne_zero (Nat.ne_of_gt (Nat.zero_lt_of_lt long))
    by_cases nonempty : items = []
    · subst nonempty
      rfl
    · simp only [Json.chars, List.length_append, List.length_cons, List.length_nil] at long
      exact value_array nonempty each (items_chars nonempty ih (by omega))
  | @object room fields each ih =>
    intro fuel rest long stops
    obtain ⟨fuel, rfl⟩ := Nat.exists_eq_succ_of_ne_zero (Nat.ne_of_gt (Nat.zero_lt_of_lt long))
    by_cases nonempty : fields = []
    · subst nonempty
      rfl
    · simp only [Json.chars, List.length_append, List.length_cons, List.length_nil] at long
      exact value_object nonempty (fields_chars nonempty ih (by omega))

/-- What is written without loss is read back. -/
theorem parse?_print (h : v.Exact maxNesting) : parse? v.print = some v := by
  have read := h.reads (v.chars.length + 1) [] (Nat.lt_succ_self _) nofun
  rw [List.append_nil] at read
  simp [parse?, print, read, skipBlanks]

/-! ## One line -/

/-- There are no control characters in the text. -/
def Printable (text : List Char) : Prop := ∀ c ∈ text, 0x20 ≤ c.toNat

instance (text : List Char) : Decidable (Printable text) := List.decidableBAll _ text

theorem Printable.append {text more : List Char} (h : Printable text) (h' : Printable more) :
    Printable (text ++ more) :=
  fun c mem => (List.mem_append.1 mem).elim (h c) (h' c)

theorem Printable.cons {c : Char} {text : List Char} (first : 0x20 ≤ c.toNat)
    (h : Printable text) : Printable (c :: text) :=
  List.forall_mem_cons.2 ⟨first, h⟩

theorem printable_escape (c : Char) : Printable (escape c) := by
  unfold escape
  split
  case h_8 =>
    split
    · rename_i control
      have digits : ∀ n < 0x20, Printable [hexDigit (n / 16), hexDigit (n % 16)] := by decide
      have lead : Printable ['\\', 'u', '0', '0'] := by decide
      exact lead.append (digits c.toNat control)
    · rename_i plain
      exact List.forall_mem_singleton.2 (Nat.le_of_not_lt plain)
  all_goals decide

theorem printable_quoted (s : String) : Printable (quoted s) := by
  have body : Printable (s.toList.flatMap escape) := by
    intro c mem
    obtain ⟨d, -, inside⟩ := List.mem_flatMap.1 mem
    exact printable_escape d c inside
  have mark : Printable ['"'] := by decide
  exact (mark.append body).append mark

theorem printable_signed (negative : Bool) (n : Nat) : Printable (signed negative (digitsOf n)) := by
  have digits : Printable (digitsOf n) := by
    intro c mem
    have digit := isDigit_of_mem_digitsOf mem
    simp only [Char.isDigit, ge_iff_le, Bool.and_eq_true, decide_eq_true_eq] at digit
    have low : '0'.toNat ≤ c.toNat := digit.1
    exact Nat.le_trans (by decide) low
  cases negative with
  | true => exact digits.cons (by decide)
  | false => exact digits

theorem printable_intercalate {texts : List (List Char)} (each : ∀ text ∈ texts, Printable text) :
    Printable ([','].intercalate texts) := by
  have comma : Printable [','] := by decide
  induction texts with
  | nil => exact List.forall_mem_nil _
  | cons text texts ih =>
    obtain ⟨first, others⟩ := List.forall_mem_cons.1 each
    cases texts with
    | nil => simpa using first
    | cons next texts =>
      have same : [','].intercalate (text :: next :: texts) =
          text ++ ([','] ++ [','].intercalate (next :: texts)) := by
        simp
      rw [same]
      exact first.append (comma.append (ih others))

theorem mem_charsEach {text : List Char} (mem : text ∈ charsEach items) :
    ∃ v ∈ items, text = v.chars := by
  induction items with
  | nil => cases mem
  | cons v items ih =>
    rcases List.mem_cons.1 mem with rfl | mem
    · exact ⟨v, List.mem_cons_self, rfl⟩
    · obtain ⟨w, inside, rfl⟩ := ih mem
      exact ⟨w, List.mem_cons_of_mem v inside, rfl⟩

theorem mem_charsFields {text : List Char} (mem : text ∈ charsFields fields) :
    ∃ field ∈ fields, text = quoted field.1 ++ ':' :: field.2.chars := by
  induction fields with
  | nil => cases mem
  | cons field fields ih =>
    obtain ⟨name, v⟩ := field
    rcases List.mem_cons.1 mem with rfl | mem
    · exact ⟨(name, v), List.mem_cons_self, rfl⟩
    · obtain ⟨other, inside, rfl⟩ := ih mem
      exact ⟨other, List.mem_cons_of_mem _ inside, rfl⟩

/-- What is written without loss is written on one line. -/
theorem Exact.printable (h : v.Exact room) : Printable v.chars := by
  induction h with
  | null => decide
  | bool b => cases b <;> decide
  | natural => exact printable_signed false _
  | negative below =>
    rw [Json.chars, chars_negative below]
    exact printable_signed true _
  | string s => exact printable_quoted s
  | @array room items each ih =>
    have inside : Printable ([','].intercalate (charsEach items)) := by
      refine printable_intercalate ?_
      intro text mem
      obtain ⟨v, inside, rfl⟩ := mem_charsEach mem
      exact ih v inside
    exact (inside.cons (by decide)).append (List.forall_mem_singleton.2 (by decide))
  | @object room fields each ih =>
    have inside : Printable ([','].intercalate (charsFields fields)) := by
      refine printable_intercalate ?_
      intro text mem
      obtain ⟨field, inside, rfl⟩ := mem_charsFields mem
      exact (printable_quoted _).append ((ih field inside).cons (by decide))
    exact (inside.cons (by decide)).append (List.forall_mem_singleton.2 (by decide))

end Stepper.Json
