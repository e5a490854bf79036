/-
  Literals.

  The lexer has looked at the texts of its tokens, so what the reader makes of
  a token is what the grammar says (`atom_eq_ok_iff`): integers fail only when
  they do not fit into 64 bits, floats never fail (`exists_float`), and strings
  only when a backslash escapes something else than the reader knows.
-/
import Stepper.Proofs.Data.Except
import Stepper.Proofs.Syntax.Grammar
import Stepper.Proofs.Syntax.Tiling

namespace Stepper.Syntax

open Stepper.Number CharClass

/-- The text is one of the kind, unless the lexer found none. -/
def Token.Sound (t : Token) : Prop := t.kind ≠ .unrecognized → Lexeme t.kind t.text.toList

theorem sound_of_mem_lex {source : String} {t : Token} (mem : t ∈ lex source) : t.Sound := by
  intro known
  obtain ⟨before, after, split⟩ := List.append_of_mem mem
  exact lexeme_iff.2 ((tiles_of_lex split).longest known).text

/-! ## Numbers -/

theorem digit_eq_isDigit (c : Char) : digit c = c.isDigit := by
  simp only [digit, Char.isDigit, ge_iff_le]
  rfl

theorem Digits.isDigit {ds : List Char} (h : Digits ds) : ∀ c ∈ ds, c.isDigit = true := by
  intro c mem
  rw [← digit_eq_isDigit]
  exact h.2 c mem

theorem Digits.all {ds : List Char} (h : Digits ds) : ds.all Char.isDigit = true :=
  List.all_eq_true.2 h.isDigit

theorem Digits.isEmpty {ds : List Char} (h : Digits ds) : ds.isEmpty = false := by
  simpa using h.1

theorem Digits.ne_minus {ds rest cs : List Char} (h : Digits ds) : ds ++ rest ≠ '-' :: cs := by
  obtain ⟨d, ds, rfl⟩ := List.exists_cons_of_ne_nil h.1
  intro same
  obtain ⟨rfl, -⟩ := List.cons.inj same
  exact absurd (h.2 _ List.mem_cons_self) (by decide)

theorem takeWhile_digits {ds : List Char} (h : Digits ds) (rest : List Char) :
    (ds ++ rest).takeWhile Char.isDigit = ds ++ rest.takeWhile Char.isDigit :=
  List.takeWhile_append_of_pos h.isDigit

theorem dropWhile_digits {ds : List Char} (h : Digits ds) (rest : List Char) :
    (ds ++ rest).dropWhile Char.isDigit = rest.dropWhile Char.isDigit :=
  List.dropWhile_append_of_pos h.isDigit

/-- At most a minus sign is the sign of some number. -/
theorem exists_signed {minus : List Char} (h : AtMost ['-'] minus) (text : List Char) :
    ∃ negative, minus ++ text = signed negative text := by
  rcases h with rfl | ⟨c, mem, rfl⟩
  · exact ⟨false, rfl⟩
  · rw [List.mem_singleton.1 mem]
    exact ⟨true, rfl⟩

theorem exists_minus (negative : Bool) (text : List Char) :
    ∃ minus, AtMost ['-'] minus ∧ signed negative text = minus ++ text := by
  cases negative with
  | false => exact ⟨[], .inl rfl, rfl⟩
  | true => exact ⟨['-'], .inr ⟨'-', List.mem_singleton.2 rfl, rfl⟩, rfl⟩

theorem splitSign_signed {ds : List Char} (h : Digits ds) (negative : Bool) (rest : List Char) :
    splitSign (signed negative (ds ++ rest)) = (negative, ds ++ rest) := by
  cases negative with
  | false =>
    rw [signed, if_neg Bool.false_ne_true, splitSign]
    intro cs
    exact h.ne_minus
  | true => rfl

theorem integerOf_signed {ds : List Char} (h : Digits ds) (negative : Bool) :
    integerOf (signed negative ds) = if negative then -(naturalOf ds : Int) else naturalOf ds := by
  cases negative with
  | false =>
    rw [signed, if_neg Bool.false_ne_true, integerOf]
    · rfl
    · intro cs
      rw [← List.append_nil ds]
      exact h.ne_minus
  | true => rfl

/-- An integer literal is read if its value fits. -/
theorem readInteger?_eq {s : List Char} (h : Lexeme .integer s) :
    readInteger? s = fit? (integerOf s) := by
  cases h with
  | @integer minus ds atMost digits =>
    obtain ⟨negative, text⟩ := exists_signed atMost ds
    have split := splitSign_signed digits negative []
    rw [List.append_nil] at split
    rw [text, integerOf_signed digits]
    simp [readInteger?, split, digits.isEmpty, digits.all]

theorem exists_exponent {s : List Char} (h : Exponent s) : ∃ e, readExponent? s = some e := by
  cases h with
  | none => exact ⟨0, rfl⟩
  | @some c sign ds letter signed digits =>
    have letter : (c == 'e' || c == 'E') = true := by simpa using letter
    rcases signed with rfl | ⟨d, mem, rfl⟩
    · obtain ⟨d, ds, rfl⟩ := List.exists_cons_of_ne_nil digits.1
      have unsigned : d ≠ '-' ∧ d ≠ '+' := by
        constructor <;> rintro rfl <;> exact absurd (digits.2 _ List.mem_cons_self) (by decide)
      have read := digits.all
      simp_all [readExponent?]
    · simp only [List.mem_cons, List.not_mem_nil, or_false] at mem
      rcases mem with rfl | rfl <;> simp [readExponent?, letter, digits.isEmpty, digits.all]

/-- A float literal is read as the float nearest to its value. -/
theorem readFloat?_signed {ds es exponent : List Char} (whole : Digits ds) (fraction : Digits es)
    (scale : Exponent exponent) (negative : Bool) :
    readFloat? (signed negative (ds ++ '.' :: (es ++ exponent))) =
      (readExponent? exponent).map fun e =>
        floatOfDecimal negative ⟨naturalOf (ds ++ es), e - es.length⟩ := by
  have split := splitSign_signed whole negative ('.' :: (es ++ exponent))
  have ends : exponent.takeWhile Char.isDigit = [] ∧ exponent.dropWhile Char.isDigit = exponent := by
    cases scale with
    | none => exact ⟨rfl, rfl⟩
    | some letter =>
      simp only [List.mem_cons, List.not_mem_nil, or_false] at letter
      rcases letter with rfl | rfl <;> exact ⟨rfl, rfl⟩
  have point : ('.' :: (es ++ exponent)).takeWhile Char.isDigit = [] ∧
      ('.' :: (es ++ exponent)).dropWhile Char.isDigit = '.' :: (es ++ exponent) := ⟨rfl, rfl⟩
  simp [readFloat?, split, takeWhile_digits whole, dropWhile_digits whole, point.1, point.2,
    takeWhile_digits fraction, dropWhile_digits fraction, ends.1, ends.2, whole.isEmpty,
    fraction.isEmpty]

/-- Every float literal is read. -/
theorem exists_float {s : List Char} (h : Lexeme .float s) : ∃ x, readFloat? s = some x := by
  cases h with
  | @float minus ds es exponent atMost whole fraction scale =>
    obtain ⟨negative, text⟩ := exists_signed atMost (ds ++ '.' :: (es ++ exponent))
    obtain ⟨e, scaled⟩ := exists_exponent scale
    rw [text, readFloat?_signed whole fraction scale, scaled]
    exact ⟨_, rfl⟩

/-! ## Strings -/

theorem spells_plain_iff {c : Char} {s t : List Char} (other : c ≠ '\\') :
    Spells (c :: s) t ↔ ∃ u, Spells s u ∧ c :: u = t := by
  constructor
  · intro spells
    cases spells with
    | plain _ rest => exact ⟨_, rest, rfl⟩
    | escaped => exact absurd rfl other
  · rintro ⟨u, rest, rfl⟩
    exact .plain other rest

theorem spells_escaped_iff {c d : Char} {s t : List Char} (known : Escape c d) :
    Spells ('\\' :: c :: s) t ↔ ∃ u, Spells s u ∧ d :: u = t := by
  constructor
  · intro spells
    cases spells with
    | plain other => exact absurd rfl other
    | escaped known' rest =>
      cases known.unique known'
      exact ⟨_, rest, rfl⟩
  · rintro ⟨u, rest, rfl⟩
    exact .escaped known rest

/-- Exactly the escapes of the grammar are resolved. -/
theorem unescape_eq_ok_iff {s t : List Char} : unescape s = .ok t ↔ Spells s t := by
  fun_induction unescape s generalizing t with
  | case1 =>
    constructor
    · rintro ⟨⟩
      exact .nil
    · rintro ⟨⟩
      rfl
  | case2 =>
    constructor
    · nofun
    · intro spells
      cases spells with
      | plain other => exact absurd rfl other
  | case3 cs ih => simp only [map_eq_ok_iff, spells_escaped_iff .feed, ih]
  | case4 cs ih => simp only [map_eq_ok_iff, spells_escaped_iff .tab, ih]
  | case5 cs ih => simp only [map_eq_ok_iff, spells_escaped_iff .quote, ih]
  | case6 cs ih => simp only [map_eq_ok_iff, spells_escaped_iff .backslash, ih]
  | case7 c cs feed tab quote backslash =>
    constructor
    · nofun
    · intro spells
      cases spells with
      | plain other => exact absurd rfl other
      | escaped known =>
        cases known with
        | feed => exact absurd rfl feed
        | tab => exact absurd rfl tab
        | quote => exact absurd rfl quote
        | backslash => exact absurd rfl backslash
  | case8 c cs other ih => simp only [map_eq_ok_iff, spells_plain_iff other, ih]

theorem between_quoted (body : List Char) : between ('"' :: (body ++ ['"'])) = body := by
  simp [between]

/-! ## Atoms -/

variable {t : Token} {form : Form}

theorem integer_eq_ok_iff (text : Lexeme .integer t.text.toList) :
    (readInteger? t.text.toList).elim (.error .integerRange) (.ok ∘ Form.int) =
      (.ok form : Except ReadFault Form) ↔ ∃ n, n.toInt = integerOf t.text.toList ∧ form = .int n := by
  rw [readInteger?_eq text]
  constructor
  · intro read
    cases value : fit? (integerOf t.text.toList) with
    | none =>
      rw [value] at read
      cases read
    | some n =>
      rw [value] at read
      cases read
      exact ⟨n, toInt_of_fit? value, rfl⟩
  · rintro ⟨n, value, rfl⟩
    rw [← value, fit?_toInt]
    rfl

/-- The reader makes of a token by itself what it denotes. -/
theorem atom_eq_ok_iff (sound : t.Sound) : t.atom = .ok form ↔ t.Denotes form := by
  unfold Token.atom
  constructor
  · intro read
    cases kind : t.kind with
    | integer =>
      rw [kind] at read
      have text : Lexeme .integer t.text.toList := kind ▸ sound (by rw [kind]; nofun)
      obtain ⟨n, value, rfl⟩ := (integer_eq_ok_iff text).1 read
      exact .integer kind value
    | float =>
      have text : Lexeme .float t.text.toList := kind ▸ sound (by rw [kind]; nofun)
      obtain ⟨x, value⟩ := exists_float text
      simp only [kind, value] at read
      cases read
      exact .float kind value
    | string =>
      have text : Lexeme .string t.text.toList := kind ▸ sound (by rw [kind]; nofun)
      generalize quoted : t.text.toList = cs at text
      cases text with
      | string =>
        simp only [kind, quoted, between_quoted, map_eq_ok_iff, unescape_eq_ok_iff] at read
        obtain ⟨cs, spells, rfl⟩ := read
        exact .string kind quoted spells
    | symbol =>
      simp only [kind] at read
      cases read
      exact .name kind
    | _ =>
      simp only [kind] at read
      cases read
  · intro denotes
    cases denotes with
    | integer kind value =>
      have text : Lexeme .integer t.text.toList := kind ▸ sound (by rw [kind]; nofun)
      simp only [kind]
      exact (integer_eq_ok_iff text).2 ⟨_, value, rfl⟩
    | float kind value => simp [kind, value]
    | string kind quoted spells =>
      simp only [kind, quoted, between_quoted, map_eq_ok_iff, unescape_eq_ok_iff]
      exact ⟨_, spells, rfl⟩
    | name kind => simp [kind]

end Stepper.Syntax
