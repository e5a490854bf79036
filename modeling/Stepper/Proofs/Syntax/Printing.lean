/-
  Reading undoes printing.

  The text of a form is cut into the tokens of a derivation of it, whatever
  follows that does not go on with its last token (`Scans`).  So a form is read
  back from its text unless it is nested too deep, and forms from their texts
  with blanks between them.
-/
import Stepper.Proofs.Number.Digits
import Stepper.Proofs.Syntax.Reading
import Stepper.Syntax.Printer

namespace Stepper.Syntax

open Stepper.Number CharClass

/-! ## Plain forms -/

/-- The text is a single symbol to the lexer. -/
def IsSymbol (name : String) : Prop := lex name = [⟨.symbol, name, 0⟩]

/-- The text is a symbol that stands for itself. -/
def IsName (name : String) : Prop := IsSymbol name ∧ name ∉ ["nil", "true", "false"]

/-- There are no floats in the form, and its symbols have such names. -/
inductive Form.Plain (names : String → Prop) : Form → Prop
  | nil : Plain names .nil
  | bool (b : Bool) : Plain names (.bool b)
  | int (n : Int64) : Plain names (.int n)
  | str (s : String) : Plain names (.str s)
  | symbol {name} (named : names name) : Plain names (.symbol name)
  | list {items} (each : ∀ form ∈ items, Plain names form) : Plain names (.list items)
  | vector {items} (each : ∀ form ∈ items, Plain names form) : Plain names (.vector items)
  | tagged {form} (inner : Plain names form) : Plain names (.tagged form)

/-- There are no floats in the form. -/
def Form.Floatless (form : Form) : Prop := form.Plain fun _ => True

variable {name : String} {rest : List Char}

/-- The text does not go on with a number or a symbol. -/
def Stops (rest : List Char) : Prop := ∀ c ∈ rest.head?, symbolRest c = false

theorem ofName_eq_symbol (other : name ∉ ["nil", "true", "false"]) :
    Form.ofName name = .symbol name := by
  unfold Form.ofName
  split
  · exact absurd (List.mem_cons_self) other
  · exact absurd (by decide) other
  · exact absurd (by decide) other
  · rfl

/-- The longest match is a symbol only if it is nothing else. -/
theorem Longest.symbol {cs u : List Char} (h : Longest cs .symbol u) (kind : TokenKind)
    (matched : kind.Matches u) : kind = .symbol := by
  rcases h.first kind matched with same | ⟨same, -⟩
  · exact same
  · exact same

/-- A symbol of the lexer is one wherever it does not go on. -/
theorem longest_of_isSymbol (h : IsSymbol name) (stops : Stops rest) :
    Longest (name.toList ++ rest) .symbol name.toList := by
  have tiles := tiles_lex name
  rw [h] at tiles
  have longest := tiles.longest nofun
  exact longest_of_stops (lexeme_iff.2 longest.text) stops fun _ => longest.symbol

theorem isSymbol_of_longest {name : String} (h : Longest (name.toList ++ []) .symbol name.toList) :
    IsSymbol name := by
  have tokens : tokensFrom 0 0 (name.toList ++ []) = [⟨.symbol, .ofList name.toList, 0⟩] := by
    rw [tokensFrom_of_longest h]
    rfl
  rwa [List.append_nil, String.ofList_toList] at tokens

/-- What the lexer takes for a symbol somewhere, it takes for one by itself. -/
theorem isSymbol_of_mem_lex {source : String} {t : Token} (mem : t ∈ lex source)
    (kind : t.kind = .symbol) : IsSymbol t.text := by
  obtain ⟨before, after, split⟩ := List.append_of_mem mem
  have longest := (tiles_of_lex split).longest (by rw [kind]; nofun)
  rw [kind] at longest
  exact isSymbol_of_longest (longest_of_stops (lexeme_iff.2 longest.text) nofun fun _ => longest.symbol)

/-! ## Literals -/

theorem digits_digitsOf (n : Nat) : Digits (digitsOf n) := by
  refine ⟨digitsOf_ne_nil n, ?_⟩
  intro c mem
  rw [digit_eq_isDigit]
  exact isDigit_of_mem_digitsOf mem

theorem lexeme_signed {ds : List Char} (digits : Digits ds) (negative : Bool) :
    Lexeme .integer (signed negative ds) := by
  obtain ⟨minus, atMost, text⟩ := exists_minus negative ds
  rw [text]
  exact .integer atMost digits

theorem lexeme_showInteger (n : Int64) : Lexeme .integer (showInteger n) :=
  lexeme_signed (digits_digitsOf n.toInt.natAbs) _

theorem integerOf_showInteger (n : Int64) : integerOf (showInteger n) = n.toInt := by
  rw [showInteger, integerOf_signed (digits_digitsOf n.toInt.natAbs), naturalOf_digitsOf]
  simp only [decide_eq_true_eq]
  split <;> omega

/-- How a string is printed spells it. -/
theorem spells_escape (cs : List Char) :
    Body (cs.flatMap escape) ∧ Spells (cs.flatMap escape) cs := by
  induction cs with
  | nil => exact ⟨.nil, .nil⟩
  | cons c cs ih =>
    obtain ⟨body, spells⟩ := ih
    rw [List.flatMap_cons]
    unfold escape
    split
    · exact ⟨.escaped (by decide) body, .escaped .quote spells⟩
    · exact ⟨.escaped (by decide) body, .escaped .backslash spells⟩
    · exact ⟨.escaped (by decide) body, .escaped .feed spells⟩
    · exact ⟨.escaped (by decide) body, .escaped .tab spells⟩
    · rename_i quote backslash _ _
      exact ⟨.plain quote backslash body, .plain backslash spells⟩

/-! ## Scanning -/

/-- The tokens that count of a text that starts so many bytes into the source. -/
def significantFrom (start : Nat) (cs : List Char) : List Token :=
  (tokensFrom start 0 cs).filter fun t => !t.kind.isTrivia

theorem significant_ofList (cs : List Char) :
    significant (.ofList cs) = significantFrom 0 cs := by
  rw [significant, lex, String.toList_ofList]
  rfl

variable {kind : TokenKind} {u v text : List Char} {form : Form} {forms : List Form}

theorem significantFrom_of_longest (start : Nat) (h : Longest (u ++ v) kind u)
    (counts : kind.isTrivia = false) : ∃ start',
      significantFrom start (u ++ v) = ⟨kind, .ofList u, start⟩ :: significantFrom start' v := by
  refine ⟨start + (String.ofList u).utf8ByteSize, ?_⟩
  rw [significantFrom, tokensFrom_of_longest h, List.filter_cons_of_pos (by simp [counts])]
  rfl

theorem significantFrom_of_trivia (start : Nat) (h : Longest (u ++ v) kind u)
    (trivia : kind.isTrivia = true) : ∃ start',
      significantFrom start (u ++ v) = significantFrom start' v := by
  refine ⟨start + (String.ofList u).utf8ByteSize, ?_⟩
  rw [significantFrom, tokensFrom_of_longest h, List.filter_cons_of_neg (by simp [trivia])]
  rfl

/-- The text starts with something else than a blank. -/
def Starts (text : List Char) : Prop := ∃ c cs, text = c :: cs ∧ blank c = false

/-- Blanks before something else do not count. -/
theorem significantFrom_of_blanks (start : Nat) (nonempty : u ≠ []) (blanks : ∀ c ∈ u, blank c = true)
    (starts : Starts v) : ∃ start', significantFrom start (u ++ v) = significantFrom start' v := by
  obtain ⟨c, cs, rfl, dark⟩ := starts
  have ends : TokenKind.whitespace.EndsBefore (c :: cs) := by
    rintro _ ⟨⟩
    exact dark
  exact significantFrom_of_trivia start (longest_of_stops (.whitespace nonempty blanks) ends nofun) rfl

/-- Only blanks start with a blank. -/
theorem Lexeme.starts (h : Lexeme kind u) (other : kind ≠ .whitespace) : Starts u := by
  obtain ⟨c, cs, rfl⟩ := List.exists_cons_of_ne_nil h.ne_nil
  refine ⟨c, cs, rfl, ?_⟩
  have family := h.family
  cases dark : blank c with
  | false => rfl
  | true =>
    have white : familyOf c = TokenKind.whitespace.family := by
      simp [familyOf, dark, TokenKind.family]
    exact absurd (TokenKind.eq_of_family (family.trans white) (by decide)) other

/-- Wherever it stands, the text is the tokens of a derivation of the form. -/
structure Scans (text : List Char) (form : Form) : Prop where
  starts : Starts text
  scans : ∀ start rest, Stops rest → ∃ tree start', Tree.Derives tree form ∧
    significantFrom start (text ++ rest) = tree.tokens ++ significantFrom start' rest

/-- A literal or a name is a token. -/
theorem scans_atom (lexeme : Lexeme kind text)
    (number : kind = .symbol → ∀ kind' : TokenKind, kind'.Matches text → kind' = .symbol)
    (denotes : ∀ start, Token.Denotes ⟨kind, .ofList text, start⟩ form) : Scans text form where
  starts := by
    refine lexeme.starts ?_
    rintro rfl
    cases (denotes 0).isAtom
  scans start rest stops := by
    have atom : kind.isAtom = true := (denotes 0).isAtom
    have ends : kind.EndsBefore rest := by
      intro c mem
      have dark := stops c mem
      cases kind <;> simp_all [TokenKind.family, TokenKind.isAtom]
    have counts : kind.isTrivia = false := by
      cases kind <;> simp_all [TokenKind.isTrivia, TokenKind.isAtom]
    obtain ⟨start', tokens⟩ :=
      significantFrom_of_longest start (longest_of_stops lexeme ends number) counts
    exact ⟨.atom ⟨kind, .ofList text, start⟩, start', .atom (denotes start), tokens⟩

theorem scans_symbol (h : IsSymbol name) : Scans name.toList (.ofName name) := by
  have stops : Stops [] := nofun
  have longest := longest_of_isSymbol h stops
  refine scans_atom (lexeme_iff.2 longest.text) (fun _ => longest.symbol) ?_
  intro start
  rw [String.ofList_toList]
  exact .name rfl

theorem scans_int (n : Int64) : Scans (showInteger n) (.int n) := by
  refine scans_atom (lexeme_showInteger n) nofun ?_
  intro start
  refine .integer rfl ?_
  rw [String.toList_ofList, integerOf_showInteger]

theorem scans_str (s : String) : Scans (quoted s) (.str s) := by
  obtain ⟨body, spells⟩ := spells_escape s.toList
  refine scans_atom (.string body) nofun ?_
  intro start
  have denotes : Token.Denotes ⟨.string, .ofList (quoted s), start⟩ (.str (.ofList s.toList)) :=
    .string rfl String.toList_ofList spells
  rwa [String.ofList_toList] at denotes

/-! ## Forms side by side -/

/-- The text is the texts of the forms with blanks between them. -/
inductive Joined : List Form → List Char → Prop
  | nil : Joined [] []
  | single (form : Form) : Joined [form] form.chars
  | cons (form : Form) {gap next forms text} (nonempty : gap ≠ [])
    (blanks : ∀ c ∈ gap, blank c = true) (rest : Joined (next :: forms) text) :
    Joined (form :: next :: forms) (form.chars ++ (gap ++ text))

theorem Starts.append (h : Starts u) (v : List Char) : Starts (u ++ v) := by
  obtain ⟨c, cs, rfl, dark⟩ := h
  exact ⟨c, cs ++ v, rfl, dark⟩

theorem Joined.starts (h : Joined (form :: forms) text) (first : Scans form.chars form) :
    Starts text := by
  cases h with
  | single => exact first.starts
  | cons => exact first.starts.append _

theorem stops_of_blanks (nonempty : u ≠ []) (blanks : ∀ c ∈ u, blank c = true) (v : List Char) :
    Stops (u ++ v) := by
  obtain ⟨c, cs, rfl⟩ := List.exists_cons_of_ne_nil nonempty
  rintro _ ⟨⟩
  cases word : symbolRest c with
  | false => rfl
  | true => exact (blanks c List.mem_cons_self).symm.trans (blank_eq_false_of_symbolRest word)

open Syntax.Tree

theorem Joined.scans (h : Joined forms text) (each : ∀ form ∈ forms, Scans form.chars form)
    (start : Nat) (stops : Stops rest) : ∃ trees start', DerivesEach trees forms ∧
      significantFrom start (text ++ rest) = tokensEach trees ++ significantFrom start' rest := by
  induction h generalizing start with
  | nil => exact ⟨[], start, .nil, rfl⟩
  | single form =>
    obtain ⟨tree, start', derives, tokens⟩ := (each form List.mem_cons_self).scans start rest stops
    refine ⟨[tree], start', .cons derives .nil, ?_⟩
    rw [tokens, tokensEach, tokensEach, List.append_nil]
  | @cons form gap next forms text nonempty blanks joined ih =>
    obtain ⟨first, others⟩ := List.forall_mem_cons.1 each
    obtain ⟨tree, middle, derives, tokens⟩ :=
      first.scans start (gap ++ (text ++ rest)) (stops_of_blanks nonempty blanks _)
    obtain ⟨next', gapped⟩ := significantFrom_of_blanks middle nonempty blanks
      ((joined.starts (others next List.mem_cons_self)).append rest)
    obtain ⟨trees, start', derivesEach, tokensEach'⟩ := ih others next'
    refine ⟨tree :: trees, start', .cons derives derivesEach, ?_⟩
    rw [List.append_assoc, List.append_assoc, tokens, gapped, tokensEach', tokensEach,
      List.append_assoc]

theorem joined_intercalate (forms : List Form) :
    Joined forms ([' '].intercalate (Form.charsEach forms)) := by
  induction forms with
  | nil => exact .nil
  | cons form forms ih =>
    cases forms with
    | nil =>
      have text : [' '].intercalate (Form.charsEach [form]) = form.chars := by
        simp [Form.charsEach]
      rw [text]
      exact .single form
    | cons next forms =>
      have text : [' '].intercalate (Form.charsEach (form :: next :: forms)) =
          form.chars ++ ([' '] ++ [' '].intercalate (Form.charsEach (next :: forms))) := by
        simp [Form.charsEach]
      rw [text]
      exact .cons form (List.cons_ne_nil _ _) (List.forall_mem_singleton.2 rfl) ih

/-! ## The text of a form -/

/-- Marks are tokens whatever follows. -/
theorem significantFrom_of_mark (start : Nat) (v : List Char) (lexeme : Lexeme kind u)
    (ends : kind.EndsBefore v) (counts : kind.isTrivia = false) (other : kind ≠ .symbol) :
    ∃ start', significantFrom start (u ++ v) =
      ⟨kind, .ofList u, start⟩ :: significantFrom start' v :=
  significantFrom_of_longest start
    (longest_of_stops lexeme ends fun symbol => absurd symbol other) counts

theorem scans_group {bracket : Bracket} {opening closing : Char} {items : List Form}
    (opens : Lexeme bracket.opener [opening]) (closes : Lexeme bracket.closer [closing])
    (stop : symbolRest closing = false) (each : ∀ form ∈ items, Scans form.chars form) :
    Scans (sequence opening closing (Form.charsEach items)) (bracket.form items) where
  starts := (opens.starts (by cases bracket <;> decide)).append _
  scans start rest stops := by
    have inside : Stops (closing :: rest) := by
      rintro _ ⟨⟩
      exact stop
    have text : sequence opening closing (Form.charsEach items) ++ rest =
        [opening] ++ ([' '].intercalate (Form.charsEach items) ++ ([closing] ++ rest)) := by
      simp [sequence]
    obtain ⟨first, opened⟩ := significantFrom_of_mark start
      ([' '].intercalate (Form.charsEach items) ++ ([closing] ++ rest)) opens
      (by cases bracket <;> exact fun _ _ => trivial) (by cases bracket <;> rfl)
      (by cases bracket <;> decide)
    obtain ⟨trees, last, derives, tokens⟩ := (joined_intercalate items).scans each first inside
    obtain ⟨start', closed⟩ := significantFrom_of_mark last rest closes
      (by cases bracket <;> exact fun _ _ => trivial) (by cases bracket <;> rfl)
      (by cases bracket <;> decide)
    refine ⟨.group bracket ⟨bracket.opener, .ofList [opening], start⟩ trees
      ⟨bracket.closer, .ofList [closing], last⟩, start', .group rfl rfl derives, ?_⟩
    rw [List.singleton_append] at closed
    rw [text, opened, List.singleton_append, tokens, closed, Tree.tokens]
    simp

theorem scans_tagged (inner : Scans form.chars form) :
    Scans (Form.tagged form).chars (.tagged form) where
  starts := ⟨'#', _, rfl, rfl⟩
  scans start rest stops := by
    obtain ⟨middle, marked⟩ := significantFrom_of_mark start ([' '] ++ (form.chars ++ rest))
      .breakTag (fun _ _ => trivial) rfl nofun
    obtain ⟨next, gap⟩ := significantFrom_of_blanks middle (List.cons_ne_nil ' ' [])
      (List.forall_mem_singleton.2 rfl) (inner.starts.append rest)
    obtain ⟨tree, start', derives, tokens⟩ := inner.scans next rest stops
    refine ⟨.tagged ⟨.breakTag, .ofList ['#', 'b', 'r', 'e', 'a', 'k'], start⟩ tree, start',
      .tagged rfl derives, ?_⟩
    have text : (Form.tagged form).chars ++ rest =
        ['#', 'b', 'r', 'e', 'a', 'k'] ++ ([' '] ++ (form.chars ++ rest)) := by
      simp [Form.chars]
    rw [text, marked, gap, tokens]
    rfl

theorem isSymbol_constant : ∀ name ∈ ["nil", "true", "false", "quote"], IsSymbol name := by
  simp only [List.forall_mem_cons]
  exact ⟨rfl, rfl, rfl, rfl, List.forall_mem_nil _⟩

/-- The text of a plain form is the tokens of a derivation of it. -/
theorem scans_plain (h : form.Plain IsName) : Scans form.chars form := by
  induction h with
  | nil => exact scans_symbol (isSymbol_constant "nil" (by decide))
  | bool b =>
    cases b with
    | true => exact scans_symbol (isSymbol_constant "true" (by decide))
    | false => exact scans_symbol (isSymbol_constant "false" (by decide))
  | int n => exact scans_int n
  | str s => exact scans_str s
  | symbol named =>
    have scans := scans_symbol named.1
    rwa [ofName_eq_symbol named.2] at scans
  | list _ ih =>
    have opens : Lexeme Bracket.paren.opener ['('] := .openParen
    have closes : Lexeme Bracket.paren.closer [')'] := .closeParen
    exact scans_group opens closes rfl ih
  | vector _ ih =>
    have opens : Lexeme Bracket.square.opener ['['] := .openBracket
    have closes : Lexeme Bracket.square.closer [']'] := .closeBracket
    exact scans_group opens closes rfl ih
  | tagged _ ih => exact scans_tagged ih

/-! ## Reading it back -/

theorem exists_derivation (plain : form.Plain IsName) :
    ∃ tree, Tree.Derives tree form ∧ significant form.print = tree.tokens := by
  obtain ⟨tree, start', derives, tokens⟩ := (scans_plain plain).scans 0 [] nofun
  have nothing : significantFrom start' [] = [] := rfl
  rw [List.append_nil, nothing, List.append_nil] at tokens
  exact ⟨tree, derives, by rw [Form.print, significant_ofList, tokens]⟩

/-- A plain form is read back from its text. -/
theorem readForm_of_shallow (plain : form.Plain IsName) (shallow : form.depth ≤ maxNesting) :
    readForm form.print = .ok form := by
  obtain ⟨tree, derives, tokens⟩ := exists_derivation plain
  have parse : Parse (significant form.print) [tree] [form] := by
    refine ⟨?_, .cons derives .nil, ?_⟩
    · rw [tokens, tokensEach, tokensEach, List.append_nil]
    · simpa using shallow
  exact readForm_of_readForms (readForms_of_parse parse)

/-- A plain form that is nested too deep is refused for that. -/
theorem readForm_of_deep (plain : form.Plain IsName) (deep : maxNesting < form.depth) :
    ∃ range, readForm form.print = .error ⟨.tooDeep, range⟩ := by
  obtain ⟨tree, derives, tokens⟩ := exists_derivation plain
  have sound : ∀ t ∈ tree.tokens, t.Sound := by
    rw [← tokens]
    exact fun t => sound_of_mem_significant
  have agrees : Agrees Progress.stepUnlessDone [] := fun _ _ => rfl
  obtain ⟨range, refused⟩ := run_deep agrees [] derives sound (Nat.zero_le _) (by simpa using deep)
  refine ⟨range, ?_⟩
  rw [readForm, Progress.start, tokens, refused]
  rfl

/-! ## Reading programs back -/

theorem plain_ofName {name : String} (symbol : IsSymbol name) : (Form.ofName name).Plain IsName := by
  by_cases special : name ∈ ["nil", "true", "false"]
  · simp only [List.mem_cons, List.not_mem_nil, or_false] at special
    rcases special with rfl | rfl | rfl
    · exact .nil
    · exact .bool true
    · exact .bool false
  · rw [ofName_eq_symbol special]
    exact .symbol ⟨symbol, special⟩

namespace Tree

mutual
/-- The symbols of a form without floats are names that the lexer has found. -/
theorem Derives.plain {tree : Tree} {form : Form} (h : tree.Derives form)
    (symbols : ∀ t ∈ tree.tokens, t.kind = .symbol → IsSymbol t.text) (floatless : form.Floatless) :
    form.Plain IsName := by
  cases h with
  | atom denotes =>
    cases denotes with
    | integer => exact .int _
    | float => cases floatless
    | string => exact .str _
    | name kind => exact plain_ofName (symbols _ (by simp [tokens]) kind)
  | @group bracket opener items closer forms _ _ each =>
    have symbols' : ∀ t ∈ tokensEach items, t.kind = .symbol → IsSymbol t.text :=
      fun t mem => symbols t (by simp [tokens, mem])
    cases bracket with
    | paren =>
      cases floatless with
      | list floatless => exact .list (each.plain symbols' floatless)
    | square =>
      cases floatless with
      | vector floatless => exact .vector (each.plain symbols' floatless)
  | @quoted mark item form _ inner =>
    cases floatless with
    | list floatless =>
      have quoted := inner.plain (fun t mem => symbols t (by simp [tokens, mem]))
        (floatless form (by simp))
      have quote : Form.Plain IsName (.symbol "quote") :=
        .symbol ⟨isSymbol_constant "quote" (by decide), by decide⟩
      refine .list ?_
      simp only [List.forall_mem_cons]
      exact ⟨quote, quoted, List.forall_mem_nil _⟩
  | tagged _ inner =>
    cases floatless with
    | tagged floatless =>
      exact .tagged (inner.plain (fun t mem => symbols t (by simp [tokens, mem])) floatless)

theorem DerivesEach.plain {trees : List Tree} {forms : List Form} (h : DerivesEach trees forms)
    (symbols : ∀ t ∈ tokensEach trees, t.kind = .symbol → IsSymbol t.text)
    (floatless : ∀ form ∈ forms, form.Floatless) : ∀ form ∈ forms, form.Plain IsName := by
  cases h with
  | nil => exact List.forall_mem_nil _
  | cons head tail =>
    obtain ⟨first, others⟩ := List.forall_mem_cons.1 floatless
    rw [List.forall_mem_cons]
    exact ⟨head.plain (fun t mem => symbols t (by simp [tokensEach, mem])) first,
      tail.plain (fun t mem => symbols t (by simp [tokensEach, mem])) others⟩
end

end Tree

/-- The forms of a program without floats are read back from their texts. -/
theorem readForms_of_joined {source text : String} (read : readForms source = .ok forms)
    (floatless : ∀ form ∈ forms, form.Floatless) (joined : Joined forms text.toList) :
    readForms text = .ok forms := by
  obtain ⟨trees, tokens, derives, shallow⟩ := exists_parse read
  have plain : ∀ form ∈ forms, form.Plain IsName := by
    refine derives.plain ?_ floatless
    rw [tokens]
    intro t mem
    exact isSymbol_of_mem_lex (List.mem_filter.1 mem).1
  have stops : Stops [] := nofun
  obtain ⟨trees', start', derives', tokens'⟩ :=
    joined.scans (fun form mem => scans_plain (plain form mem)) 0 stops
  have nothing : significantFrom start' [] = [] := rfl
  rw [List.append_nil, nothing, List.append_nil, ← significant_ofList,
    String.ofList_toList] at tokens'
  exact readForms_of_parse ⟨tokens'.symm, derives', shallow⟩

theorem plain_nested (n : Nat) : (n.repeat (fun form => .list [form]) Form.nil).Plain IsName := by
  induction n with
  | zero => exact .nil
  | succ n ih => exact .list (List.forall_mem_singleton.2 ih)

theorem depth_nested (n : Nat) : (n.repeat (fun form => .list [form]) Form.nil).depth = n + 1 := by
  induction n with
  | zero => rfl
  | succ n ih => simp [Nat.repeat, Form.depth_list, Form.depthAll, ih]

/-- Reading undoes printing, of a form and of a program.  The reader counts in
    offsets without a bound, so this is about texts under 2 ^ 32 bytes, whose
    offsets fit into 32 bits. -/
theorem reading_print :
    (∀ form : Form, form.Plain IsName →
      (form.depth ≤ maxNesting → readForm form.print = .ok form) ∧
      (maxNesting < form.depth → ∃ range, readForm form.print = .error ⟨.tooDeep, range⟩)) ∧
    (∀ (source text : String) (forms : List Form), readForms source = .ok forms →
      (∀ form ∈ forms, form.Floatless) → Joined forms text.toList → readForms text = .ok forms) ∧
    ∀ text : String, text.utf8ByteSize < UInt32.size → Addressable text :=
  ⟨fun _ plain => ⟨readForm_of_shallow plain, readForm_of_deep plain⟩,
    fun _ _ _ => readForms_of_joined, fun _ => addressable_of_small⟩

theorem reading_print_samples :
    (readForm (Form.tagged (.vector [.symbol "-a'", .str "\"\\\n", .int (-5)])).print =
      .ok (.tagged (.vector [.symbol "-a'", .str "\"\\\n", .int (-5)]))) ∧
    (∃ range, readForm (Nat.repeat (fun form => .list [form]) 512 Form.nil).print =
      .error ⟨.tooDeep, range⟩) ∧
    readForms "(quote a),\n#break [1]" =
      .ok [.list [.symbol "quote", .symbol "a"], .tagged (.vector [.int 1])] ∧
    Addressable "(quote a),\n#break [1]" := by
  obtain ⟨form, program, addressable⟩ := reading_print
  have quote : Form.Floatless (.list [.symbol "quote", .symbol "a"]) := by
    refine .list ?_
    simp only [List.forall_mem_cons]
    exact ⟨.symbol trivial, .symbol trivial, List.forall_mem_nil _⟩
  have tagged : Form.Floatless (.tagged (.vector [.int 1])) :=
    .tagged (.vector (List.forall_mem_singleton.2 (.int 1)))
  refine ⟨(form _ (.tagged (.vector ?_))).1 (by decide),
    (form _ (plain_nested 512)).2 (by rw [depth_nested]; decide),
    program "'a #break[1]" _ _ rfl ?_ ?_, addressable _ (by decide)⟩
  · simp only [List.forall_mem_cons]
    exact ⟨.symbol ⟨rfl, by decide⟩, .str _, .int _, List.forall_mem_nil _⟩
  · simp only [List.forall_mem_cons]
    exact ⟨quote, tagged, List.forall_mem_nil _⟩
  · have gap : ∀ c ∈ [',', '\n'], blank c = true :=
      List.forall_mem_cons.2 ⟨rfl, List.forall_mem_singleton.2 rfl⟩
    exact .cons (.list [.symbol "quote", .symbol "a"]) (List.cons_ne_nil _ _) gap
      (.single (.tagged (.vector [.int 1])))

end Stepper.Syntax
