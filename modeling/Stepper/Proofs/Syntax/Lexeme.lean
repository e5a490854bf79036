/-
  The texts of tokens.

  `Lexeme kind s` says, kind by kind, what the texts of the table look like,
  and agrees with its patterns (`lexeme_iff`).  The first character of a text
  tells all kinds apart but numbers and symbols (`Lexeme.family`), and of
  these a text is at most one number (`Lexeme.integer_or_float`); so of the
  kinds that share a text the table has to rank only a number and a symbol
  (`Lexeme.unique`).
-/
import Stepper.Syntax.Lexer

namespace Stepper.Text.Pattern

/-! ## Patterns of the table -/

variable {p : Pattern} {test : Char → Bool} {c : Char} {s : List Char}

theorem matches_char_iff : Matches (char c) s ↔ s = [c] := by
  simp [char, matches_one_iff]

theorem matches_text_iff {cs : List Char} : Matches (text cs) s ↔ s = cs := by
  induction cs generalizing s with
  | nil => exact matches_empty_iff
  | cons c cs ih =>
    cases cs with
    | nil => exact matches_char_iff
    | cons d cs => simp [text, matches_seq_iff, matches_char_iff, ih]

theorem matches_optional_iff : Matches p.optional s ↔ s = [] ∨ Matches p s := by
  rw [optional, matches_either_iff, matches_empty_iff, or_comm]

theorem matches_many_one_iff : Matches (.many (.one test)) s ↔ ∀ c ∈ s, test c = true := by
  induction s with
  | nil => simp [matches_nil_iff, acceptsEmpty]
  | cons c s ih =>
    rw [matches_many_cons_iff, List.forall_mem_cons, ← ih]
    constructor
    · rintro ⟨t, u, rfl, one, rest⟩
      obtain ⟨d, same, passes⟩ := matches_one_iff.1 one
      obtain ⟨rfl, rfl⟩ := List.cons.inj same
      exact ⟨passes, rest⟩
    · rintro ⟨passes, rest⟩
      exact ⟨[], s, rfl, .one passes, rest⟩

theorem matches_oneOrMore_one_iff :
    Matches (oneOrMore (.one test)) s ↔ s ≠ [] ∧ ∀ c ∈ s, test c = true := by
  rw [oneOrMore, matches_seq_iff]
  constructor
  · rintro ⟨t, u, rfl, one, rest⟩
    obtain ⟨c, rfl, passes⟩ := matches_one_iff.1 one
    exact ⟨List.cons_ne_nil c u, List.forall_mem_cons.2 ⟨passes, matches_many_one_iff.1 rest⟩⟩
  · rintro ⟨nonempty, each⟩
    obtain ⟨c, u, rfl⟩ := List.exists_cons_of_ne_nil nonempty
    obtain ⟨passes, rest⟩ := List.forall_mem_cons.1 each
    exact ⟨[c], u, rfl, .one passes, matches_many_one_iff.2 rest⟩

end Stepper.Text.Pattern

namespace Stepper.Syntax

open Stepper.Text Stepper.Text.Pattern CharClass

/-- The text belongs to the pattern of the kind. -/
def TokenKind.Matches (kind : TokenKind) (s : List Char) : Prop :=
  ∃ p, (kind, p) ∈ table ∧ Pattern.Matches p s

/-! ## The texts of each kind -/

/-- Nothing, or the character. -/
def AtMost (cs : List Char) (s : List Char) : Prop := s = [] ∨ ∃ c ∈ cs, s = [c]

/-- One digit or more. -/
def Digits (s : List Char) : Prop := s ≠ [] ∧ ∀ c ∈ s, digit c = true

/-- Nothing, or an exponent. -/
inductive Exponent : List Char → Prop
  | none : Exponent []
  | some {c sign ds} (letter : c ∈ ['e', 'E']) (signed : AtMost ['+', '-'] sign)
    (digits : Digits ds) :
    Exponent (c :: (sign ++ ds))

/-- What may stand between the quotation marks of a string literal. -/
inductive Body : List Char → Prop
  | nil : Body []
  | plain {c s} (quote : c ≠ '"') (backslash : c ≠ '\\') (rest : Body s) : Body (c :: s)
  | escaped {c s} (feed : c ≠ '\n') (rest : Body s) : Body ('\\' :: c :: s)

/-- The texts of the tokens. -/
inductive Lexeme : TokenKind → List Char → Prop
  | whitespace {s} (nonempty : s ≠ []) (blanks : ∀ c ∈ s, blank c = true) : Lexeme .whitespace s
  | comment {s} (line : ∀ c ∈ s, c ≠ '\r' ∧ c ≠ '\n') : Lexeme .comment (';' :: s)
  | openParen : Lexeme .openParen ['(']
  | closeParen : Lexeme .closeParen [')']
  | openBracket : Lexeme .openBracket ['[']
  | closeBracket : Lexeme .closeBracket [']']
  | quote : Lexeme .quote ['\'']
  | breakTag : Lexeme .breakTag ['#', 'b', 'r', 'e', 'a', 'k']
  | integer {minus ds} (signed : AtMost ['-'] minus) (digits : Digits ds) :
    Lexeme .integer (minus ++ ds)
  | float {minus ds es exponent} (signed : AtMost ['-'] minus) (whole : Digits ds)
    (fraction : Digits es) (scale : Exponent exponent) :
    Lexeme .float (minus ++ (ds ++ '.' :: (es ++ exponent)))
  | string {body} (closed : Body body) : Lexeme .string ('"' :: (body ++ ['"']))
  | symbol {c s} (start : symbolStart c = true) (rest : ∀ d ∈ s, symbolRest d = true) :
    Lexeme .symbol (c :: s)

theorem matches_sign_iff {cs s : List Char} :
    Pattern.Matches (Pattern.one (· ∈ cs)).optional s ↔ AtMost cs s := by
  rw [matches_optional_iff, matches_one_iff, AtMost]
  simp [and_comm]

theorem matches_minus_iff {c : Char} {s : List Char} :
    Pattern.Matches (Pattern.char c).optional s ↔ AtMost [c] s := by
  rw [matches_optional_iff, matches_char_iff, AtMost]
  simp

theorem matches_digits_iff {s : List Char} :
    Pattern.Matches (Pattern.one digit).oneOrMore s ↔ Digits s :=
  matches_oneOrMore_one_iff

theorem matches_exponent_iff {s : List Char} :
    Pattern.Matches (((Pattern.one (· ∈ ['e', 'E'])).seq
      ((Pattern.one (· ∈ ['+', '-'])).optional.seq (Pattern.one digit).oneOrMore)).optional) s ↔
      Exponent s := by
  simp only [matches_optional_iff (s := s), matches_seq_iff, matches_sign_iff, matches_digits_iff,
    matches_one_iff, decide_eq_true_eq]
  constructor
  · rintro (rfl | ⟨_, _, rfl, ⟨c, rfl, letter⟩, sign, ds, rfl, signed, digits⟩)
    · exact .none
    · have exponent : Exponent (c :: (sign ++ ds)) := .some letter signed digits
      exact exponent
  · rintro (_ | ⟨letter, signed, digits⟩)
    · exact .inl rfl
    · exact .inr ⟨[_], _, rfl, ⟨_, rfl, letter⟩, _, _, rfl, signed, digits⟩

theorem matches_body_iff {s : List Char} :
    Pattern.Matches (.many ((Pattern.one fun c => c != '"' && c != '\\').either
      ((Pattern.char '\\').seq (.one (· != '\n'))))) s ↔ Body s := by
  constructor
  · intro h
    generalize body : Pattern.many _ = p at h
    induction h with
    | manyNil => exact .nil
    | @manyCons p t u one _ _ rest =>
      cases body
      rcases matches_either_iff.1 one with plain | escaped
      · obtain ⟨c, rfl, passes⟩ := matches_one_iff.1 plain
        simp only [Bool.and_eq_true, bne_iff_ne] at passes
        exact .plain passes.1 passes.2 (rest rfl)
      · obtain ⟨v, w, rfl, first, second⟩ := matches_seq_iff.1 escaped
        obtain ⟨c, rfl, passes⟩ := matches_one_iff.1 second
        rw [matches_char_iff.1 first]
        exact .escaped (bne_iff_ne.1 passes) (rest rfl)
    | _ => cases body
  · intro h
    induction h with
    | nil => exact .manyNil
    | @plain c s quote backslash _ rest =>
      have one : (c != '"' && c != '\\') = true := by simp [quote, backslash]
      exact .manyCons (s := [c]) (.left (.one one)) rest
    | @escaped c s feed _ rest =>
      have pair : Pattern.Matches ((Pattern.char '\\').seq (.one (· != '\n'))) ['\\', c] :=
        .seq (matches_char_iff.2 rfl) (.one (bne_iff_ne.2 feed))
      exact .manyCons (s := ['\\', c]) (.right pair) rest

/-- Every kind has one row. -/
theorem matches_iff_of_row {kind : TokenKind} {p : Pattern} {s : List Char} (i : Nat)
    (row : table[i]? = some (kind, p)) : kind.Matches s ↔ Pattern.Matches p s := by
  constructor
  · rintro ⟨q, other, matched⟩
    obtain ⟨j, there⟩ := List.getElem?_of_mem other
    have apart : (table.map (·.1)).Nodup := by decide
    have bound : i < (table.map (·.1)).length := by
      simpa using (List.getElem?_eq_some_iff.1 row).1
    have same : i = j := by
      refine (List.getElem?_inj bound apart).1 ?_
      rw [List.getElem?_map, List.getElem?_map, row, there]
      rfl
    rw [← same, row] at there
    cases there
    exact matched
  · intro matched
    exact ⟨p, List.mem_of_getElem? row, matched⟩

theorem lexeme_iff_of_fixed {kind : TokenKind} {cs s : List Char} (own : Lexeme kind cs)
    (only : ∀ {s}, Lexeme kind s → s = cs) (i : Nat) (row : table[i]? = some (kind, .text cs)) :
    Lexeme kind s ↔ kind.Matches s := by
  rw [matches_iff_of_row i row, matches_text_iff]
  constructor
  · exact only
  · rintro rfl
    exact own

/-- The texts of a kind are those of its pattern. -/
theorem lexeme_iff {kind : TokenKind} {s : List Char} : Lexeme kind s ↔ kind.Matches s := by
  cases kind with
  | whitespace =>
    rw [matches_iff_of_row 0 rfl, matches_oneOrMore_one_iff]
    constructor
    · intro h
      cases h with
      | whitespace nonempty blanks => exact ⟨nonempty, blanks⟩
    · rintro ⟨nonempty, blanks⟩
      exact .whitespace nonempty blanks
  | comment =>
    rw [matches_iff_of_row 1 rfl]
    simp only [matches_seq_iff, matches_char_iff, matches_many_one_iff, Bool.and_eq_true, bne_iff_ne]
    constructor
    · intro h
      cases h with
      | comment line => exact ⟨[';'], _, rfl, rfl, line⟩
    · rintro ⟨_, _, rfl, rfl, line⟩
      exact .comment line
  | openParen => exact lexeme_iff_of_fixed .openParen (fun | .openParen => rfl) 2 rfl
  | closeParen => exact lexeme_iff_of_fixed .closeParen (fun | .closeParen => rfl) 3 rfl
  | openBracket => exact lexeme_iff_of_fixed .openBracket (fun | .openBracket => rfl) 4 rfl
  | closeBracket => exact lexeme_iff_of_fixed .closeBracket (fun | .closeBracket => rfl) 5 rfl
  | quote => exact lexeme_iff_of_fixed .quote (fun | .quote => rfl) 6 rfl
  | breakTag => exact lexeme_iff_of_fixed .breakTag (fun | .breakTag => rfl) 7 rfl
  | integer =>
    rw [matches_iff_of_row 8 rfl]
    simp only [matches_seq_iff, matches_minus_iff, matches_digits_iff]
    constructor
    · intro h
      cases h with
      | integer signed digits => exact ⟨_, _, rfl, signed, digits⟩
    · rintro ⟨_, _, rfl, signed, digits⟩
      exact .integer signed digits
  | float =>
    rw [matches_iff_of_row 9 rfl]
    simp only [matches_seq_iff, matches_minus_iff, matches_digits_iff, matches_exponent_iff,
      matches_char_iff]
    constructor
    · intro h
      cases h with
      | float signed whole fraction scale =>
        exact ⟨_, _, rfl, signed, _, _, rfl, whole, ['.'], _, rfl, rfl, _, _, rfl, fraction, scale⟩
    · rintro ⟨minus, _, rfl, signed, ds, _, rfl, whole, _, _, rfl, rfl, es, exponent, rfl, fraction,
        scale⟩
      have float : Lexeme .float (minus ++ (ds ++ '.' :: (es ++ exponent))) :=
        .float signed whole fraction scale
      exact float
  | string =>
    rw [matches_iff_of_row 10 rfl]
    simp only [matches_seq_iff, matches_char_iff, matches_body_iff]
    constructor
    · intro h
      cases h with
      | string closed => exact ⟨['"'], _, rfl, rfl, _, _, rfl, closed, rfl⟩
    · rintro ⟨_, _, rfl, rfl, _, _, rfl, closed, rfl⟩
      exact .string closed
  | symbol =>
    rw [matches_iff_of_row 11 rfl]
    simp only [matches_seq_iff, matches_one_iff, matches_many_one_iff]
    constructor
    · intro h
      cases h with
      | symbol start rest => exact ⟨[_], _, rfl, ⟨_, rfl, start⟩, rest⟩
    · rintro ⟨_, _, rfl, ⟨_, rfl, start⟩, rest⟩
      exact .symbol start rest
  | unrecognized =>
    constructor
    · rintro ⟨⟩
    · rintro ⟨p, row, -⟩
      have none : TokenKind.unrecognized ∉ table.map (·.1) := by decide
      exact absurd (List.mem_map_of_mem row) none

/-! ## First characters -/

/-- Numbers count as symbols here. -/
def TokenKind.family : TokenKind → TokenKind
  | .integer | .float => .symbol
  | kind => kind

/-- The family of the tokens that start with a character. -/
def familyOf (c : Char) : TokenKind :=
  if blank c then .whitespace
  else if symbolStart c || digit c then .symbol
  else match c with
    | ';' => .comment
    | '(' => .openParen
    | ')' => .closeParen
    | '[' => .openBracket
    | ']' => .closeBracket
    | '\'' => .quote
    | '#' => .breakTag
    | '"' => .string
    | _ => .unrecognized

variable {kind kind' : TokenKind} {c : Char} {s : List Char}

theorem symbolRest_of_digit (h : digit c = true) : symbolRest c = true := by
  simp [symbolRest, h]

theorem symbolRest_of_symbolStart (h : symbolStart c = true) : symbolRest c = true := by
  simp [symbolRest, h]

theorem blank_eq_false_of_symbolRest (h : symbolRest c = true) : blank c = false := by
  rw [Bool.eq_false_iff]
  intro blanks
  simp only [blank, decide_eq_true_eq, List.mem_cons, List.not_mem_nil, or_false] at blanks
  rcases blanks with rfl | rfl | rfl | rfl | rfl <;> revert h <;> decide

theorem familyOf_of_word (h : symbolStart c = true ∨ digit c = true) : familyOf c = .symbol := by
  have word : symbolRest c = true := h.elim symbolRest_of_symbolStart symbolRest_of_digit
  simp [familyOf, blank_eq_false_of_symbolRest word, h]

/-- A number starts with a minus sign or a digit. -/
theorem familyOf_of_number {minus ds rest : List Char} (signed : AtMost ['-'] minus)
    (digits : Digits ds) (same : minus ++ (ds ++ rest) = c :: s) : familyOf c = .symbol := by
  rcases signed with rfl | ⟨d, mem, rfl⟩
  · obtain ⟨d, ds, rfl⟩ := List.exists_cons_of_ne_nil digits.1
    obtain ⟨rfl, -⟩ := List.cons.inj same
    exact familyOf_of_word (.inr (digits.2 d List.mem_cons_self))
  · obtain ⟨rfl, -⟩ := List.cons.inj same
    rw [List.mem_singleton.1 mem]
    rfl

theorem Lexeme.ne_nil (h : Lexeme kind s) : s ≠ [] := by
  cases h with
  | whitespace nonempty => exact nonempty
  | integer _ digits => exact List.append_ne_nil_of_right_ne_nil _ digits.1
  | float => simp
  | _ => exact List.cons_ne_nil _ _

/-- The first character tells the family. -/
theorem Lexeme.family (h : Lexeme kind (c :: s)) : kind.family = familyOf c := by
  generalize same : c :: s = text at h
  cases h with
  | whitespace _ blanks =>
    subst same
    simp [familyOf, TokenKind.family, blanks c List.mem_cons_self]
  | integer signed digits =>
    rw [← List.append_nil (_ ++ _), List.append_assoc] at same
    exact (familyOf_of_number signed digits same.symm).symm
  | float signed whole => exact (familyOf_of_number signed whole same.symm).symm
  | symbol start =>
    cases same
    exact (familyOf_of_word (.inl start)).symm
  | _ =>
    cases same
    rfl

/-- A text and one that it starts belong to the same family. -/
theorem Lexeme.family_append {u w : List Char} (h : Lexeme kind u)
    (h' : Lexeme kind' (u ++ w)) : kind'.family = kind.family := by
  obtain ⟨c, t, rfl⟩ := List.exists_cons_of_ne_nil h.ne_nil
  exact h'.family.trans h.family.symm

/-! ## Sharing a text -/

theorem symbolRest_of_sign {cs : List Char} (signed : AtMost cs s)
    (small : cs.all symbolRest = true) : ∀ c ∈ s, symbolRest c = true := by
  rcases signed with rfl | ⟨d, mem, rfl⟩
  · simp
  · simpa using List.all_eq_true.1 small d mem

theorem Digits.symbolRest (h : Digits s) : ∀ c ∈ s, symbolRest c = true :=
  fun c mem => symbolRest_of_digit (h.2 c mem)

theorem Exponent.symbolRest (h : Exponent s) : ∀ c ∈ s, symbolRest c = true := by
  cases h with
  | none => simp
  | some letter signed digits =>
    simp only [List.mem_cons, List.mem_append]
    rintro c (rfl | mem | mem)
    · simp only [List.mem_cons, List.not_mem_nil, or_false] at letter
      rcases letter with rfl | rfl <;> rfl
    · exact symbolRest_of_sign signed (by decide) c mem
    · exact digits.symbolRest c mem

/-- Numbers and symbols are made of the same characters. -/
theorem Lexeme.word (h : Lexeme kind s) (family : kind.family = .symbol) :
    ∀ c ∈ s, symbolRest c = true := by
  cases h with
  | integer signed digits =>
    intro c mem
    rcases List.mem_append.1 mem with mem | mem
    · exact symbolRest_of_sign signed (by decide) c mem
    · exact digits.symbolRest c mem
  | float signed whole fraction scale =>
    simp only [List.mem_append, List.mem_cons]
    rintro c (mem | mem | rfl | mem | mem)
    · exact symbolRest_of_sign signed (by decide) c mem
    · exact whole.symbolRest c mem
    · rfl
    · exact fraction.symbolRest c mem
    · exact scale.symbolRest c mem
  | symbol start rest =>
    exact List.forall_mem_cons.2 ⟨symbolRest_of_symbolStart start, rest⟩
  | _ => cases family

/-- A text is not both kinds of number. -/
theorem Lexeme.integer_or_float (integer : Lexeme .integer s) : ¬ Lexeme .float s := by
  have pointless : '.' ∉ s := by
    cases integer with
    | integer signed digits =>
      intro point
      rcases List.mem_append.1 point with mem | mem
      · rcases signed with rfl | ⟨c, minus, rfl⟩
        · cases mem
        · rw [List.mem_singleton.1 minus] at mem
          revert mem
          decide
      · exact absurd (digits.2 _ mem) (by decide)
  intro float
  cases float with
  | float => exact pointless (by simp)

theorem TokenKind.family_eq_symbol_iff :
    kind.family = .symbol ↔ kind = .symbol ∨ kind = .integer ∨ kind = .float := by
  cases kind <;> simp [family]

theorem TokenKind.eq_of_family (same : kind'.family = kind.family) (other : kind.family ≠ .symbol) :
    kind' = kind := by
  cases kind <;> cases kind' <;> simp_all [family]

/-- Two kinds that share a text are a number and a symbol. -/
theorem Lexeme.unique (h : Lexeme kind s) (h' : Lexeme kind' s) :
    kind' = kind ∨ (kind.family = .symbol ∧ kind'.family = .symbol ∧
      (kind = .symbol ∨ kind' = .symbol)) := by
  have family : kind'.family = kind.family := h.family_append (by rwa [List.append_nil])
  by_cases word : kind.family = .symbol
  · have word' : kind'.family = .symbol := family.trans word
    by_cases symbol : kind = .symbol ∨ kind' = .symbol
    · exact .inr ⟨word, word', symbol⟩
    · -- both are numbers
      rw [not_or] at symbol
      rcases (TokenKind.family_eq_symbol_iff.1 word).resolve_left symbol.1 with rfl | rfl <;>
        rcases (TokenKind.family_eq_symbol_iff.1 word').resolve_left symbol.2 with rfl | rfl
      · exact .inl rfl
      · exact absurd h' h.integer_or_float
      · exact absurd h h'.integer_or_float
      · exact .inl rfl
  · exact .inl (TokenKind.eq_of_family family word)

/-! ## Going on -/

/-- No text of the kind goes on into the text after it. -/
def TokenKind.EndsBefore (kind : TokenKind) (v : List Char) : Prop :=
  ∀ c ∈ v.head?, match kind.family with
    | .whitespace => blank c = false
    | .comment => c = '\r' ∨ c = '\n'
    | .symbol => symbolRest c = false
    | _ => True

/-- The first quotation mark that is not escaped ends a string literal. -/
theorem Body.append_inj {b b' w w' : List Char} (h : Body b) (h' : Body b')
    (same : b ++ '"' :: w = b' ++ '"' :: w') : b = b' ∧ w = w' := by
  induction h generalizing b' with
  | nil =>
    cases h' with
    | nil => exact ⟨rfl, (List.cons.inj same).2⟩
    | plain quote => exact absurd (List.cons.inj same).1.symm quote
    | escaped => exact absurd (List.cons.inj same).1 (by decide)
  | plain quote backslash rest ih =>
    cases h' with
    | nil => exact absurd (List.cons.inj same).1 quote
    | plain _ _ rest' =>
      obtain ⟨rfl, tails⟩ := List.cons.inj same
      obtain ⟨rfl, ends⟩ := ih rest' tails
      exact ⟨rfl, ends⟩
    | escaped => exact absurd (List.cons.inj same).1 backslash
  | escaped feed rest ih =>
    cases h' with
    | nil => exact absurd (List.cons.inj same).1 (by decide)
    | plain _ backslash => exact absurd (List.cons.inj same).1.symm backslash
    | escaped _ rest' =>
      obtain ⟨-, same⟩ := List.cons.inj same
      obtain ⟨rfl, tails⟩ := List.cons.inj same
      obtain ⟨rfl, ends⟩ := ih rest' tails
      exact ⟨rfl, ends⟩

theorem head?_eq_of_cons_isPrefix {d : Char} {w v : List Char} (h : d :: w <+: v) :
    v.head? = some d := by
  obtain ⟨t, rfl⟩ := h
  rfl

/-- Before a text in which it does not go on, no text of a token that starts
    with this one is longer. -/
theorem Lexeme.stops {u v w : List Char} (h : Lexeme kind u) (ends : kind.EndsBefore v)
    (more : w <+: v) (h' : Lexeme kind' (u ++ w)) : w = [] := by
  have family : kind'.family = kind.family := h.family_append h'
  cases w with
  | nil => rfl
  | cons d w =>
    exfalso
    have next := ends d (head?_eq_of_cons_isPrefix more)
    have mem : d ∈ u ++ d :: w := by simp
    by_cases word : kind.family = .symbol
    · rw [word] at next
      have inside : symbolRest d = true := h'.word (family.trans word) d mem
      exact Bool.false_ne_true (next.symm.trans inside)
    · cases TokenKind.eq_of_family family word
      cases h with
      | whitespace =>
        cases h' with
        | whitespace _ blanks => exact Bool.false_ne_true (next.symm.trans (blanks d mem))
      | comment =>
        cases h' with
        | comment line =>
          obtain ⟨noReturn, noFeed⟩ := line d (by simp)
          exact next.elim noReturn noFeed
      | string closed =>
        generalize same : _ ++ d :: w = text at h'
        cases h' with
        | string closed' =>
          rw [List.cons_append, List.append_assoc] at same
          obtain ⟨-, nothing⟩ := closed.append_inj closed' (List.cons.inj same).2
          cases nothing
      | integer | float | symbol => exact word rfl
      | _ => cases h'

end Stepper.Syntax
