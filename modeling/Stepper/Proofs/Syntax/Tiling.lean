/-
  The lexer tiles a source by longest match.

  The search through the table remembers the last place at which a row was
  complete, so it finds the longest text that belongs to a row and the first
  such row (`search_cases`).  What `munch` takes is therefore the longest
  match (`munch_cases`), which there is only one of (`munch_of_longest`), and
  the tokens of a source are such matches side by side (`tiles_lex`).
-/
import Stepper.Proofs.Syntax.Lexeme

namespace Stepper.Syntax

open Stepper.Text

/-! ## The search through the table -/

section

variable {rows : List (TokenKind × Pattern)} {cs : List Char}

/-- The first of some rows to which the text belongs. -/
def rowOf (rows : List (TokenKind × Pattern)) (s : List Char) : Option TokenKind :=
  (rows.find? fun (_, p) => p.accepts s).map (·.1)

theorem accepts_eq_false_of_isNever {p : Pattern} (h : p.isNever = true) (s : List Char) :
    p.accepts s = false := by
  cases p with
  | never =>
    rw [Bool.eq_false_iff, ne_eq, Pattern.accepts_iff]
    exact Pattern.not_matches_never
  | _ => cases h

/-- A row that has read a character is left with what it takes to complete it. -/
theorem rowOf_advance (c : Char) (s : List Char) :
    rowOf (advance c rows) s = rowOf rows (c :: s) := by
  induction rows with
  | nil => rfl
  | cons row rows ih =>
    obtain ⟨kind, p⟩ := row
    simp only [rowOf, advance, List.map_cons, List.filter_cons, List.find?_cons] at ih ⊢
    have step : p.accepts (c :: s) = (p.after c).accepts s := rfl
    rw [step]
    cases never : (p.after c).isNever with
    | false =>
      simp only [Bool.not_false, if_true, List.find?_cons]
      cases (p.after c).accepts s with
      | true => rfl
      | false => exact ih
    | true =>
      rw [accepts_eq_false_of_isNever never]
      exact ih

theorem rowOf_eq_none_of_advance {c : Char} (h : (advance c rows).isEmpty = true)
    (s : List Char) : rowOf rows (c :: s) = none := by
  rw [← rowOf_advance, List.isEmpty_iff.1 h]
  rfl

/-- The search finds the longest text that belongs to a row, and the first row
    to which it belongs, or finds nothing if there is no such text. -/
theorem search_cases (rows : List (TokenKind × Pattern)) (found : Found) (cs : List Char) :
    (∃ kind u v, cs = u ++ v ∧ u ≠ [] ∧ rowOf rows u = some kind ∧
      (search rows found cs).best = some (kind, found.reach + u.length) ∧
      ∀ w, w <+: v → w ≠ [] → rowOf rows (u ++ w) = none) ∨
    ((search rows found cs).best = found.best ∧ ∀ u, u <+: cs → u ≠ [] → rowOf rows u = none) := by
  induction cs generalizing rows found with
  | nil =>
    right
    refine ⟨rfl, ?_⟩
    intro u more nonempty
    exact absurd (List.prefix_nil.1 more) nonempty
  | cons c cs ih =>
    rw [search]
    by_cases stuck : (advance c rows).isEmpty = true
    · right
      rw [if_pos stuck]
      refine ⟨rfl, ?_⟩
      intro u more nonempty
      obtain ⟨d, t, rfl⟩ := List.exists_cons_of_ne_nil nonempty
      obtain ⟨rfl, -⟩ := List.cons_prefix_cons.1 more
      exact rowOf_eq_none_of_advance stuck t
    · rw [if_neg stuck]
      have first : completed (advance c rows) = rowOf rows [c] := rowOf_advance c []
      rcases ih (advance c rows)
          ⟨((completed (advance c rows)).map (·, found.reach + 1)).or found.best, found.reach + 1⟩
        with ⟨kind, u, v, rfl, nonempty, row, best, longest⟩ | ⟨best, none⟩
      · left
        refine ⟨kind, c :: u, v, rfl, List.cons_ne_nil c u, ?_, ?_, ?_⟩
        · rw [← rowOf_advance, row]
        · rw [best, List.length_cons, Nat.add_assoc, Nat.add_comm 1]
        · intro w more nonempty
          rw [List.cons_append, ← rowOf_advance]
          exact longest w more nonempty
      · have later : ∀ w, w <+: cs → w ≠ [] → rowOf rows (c :: w) = Option.none := by
          intro w more nonempty
          rw [← rowOf_advance]
          exact none w more nonempty
        rw [best, first]
        cases row : rowOf rows [c] with
        | some kind =>
          left
          exact ⟨kind, [c], cs, rfl, List.cons_ne_nil c [], row, rfl, later⟩
        | none =>
          right
          refine ⟨rfl, ?_⟩
          intro u more nonempty
          obtain ⟨d, t, rfl⟩ := List.exists_cons_of_ne_nil nonempty
          obtain ⟨rfl, tail⟩ := List.cons_prefix_cons.1 more
          cases t with
          | nil => exact row
          | cons e t => exact later _ tail (List.cons_ne_nil e t)

end

/-! ## Longest match -/

/-- `u` is the longest text at the start of `cs` that belongs to a token; of
    the kinds to which it belongs, a number comes before a symbol. -/
structure Longest (cs : List Char) (kind : TokenKind) (u : List Char) : Prop where
  start : u <+: cs
  text : kind.Matches u
  longest : ∀ (kind' : TokenKind) w, w <+: cs → kind'.Matches w → w.length ≤ u.length
  first : ∀ kind' : TokenKind, kind'.Matches u →
    kind' = kind ∨ (kind' = .symbol ∧ (kind = .integer ∨ kind = .float))

/-- No text at the start of `cs`, save the empty one, belongs to a token. -/
def Unmatched (cs : List Char) : Prop :=
  ∀ (kind : TokenKind) u, u <+: cs → u ≠ [] → ¬ kind.Matches u

variable {kind : TokenKind} {cs u v : List Char}

theorem TokenKind.Matches.ne_nil (h : kind.Matches u) : u ≠ [] := (lexeme_iff.2 h).ne_nil

theorem matches_of_rowOf (row : rowOf table u = some kind) : kind.Matches u := by
  obtain ⟨⟨kind', p⟩, found, rfl⟩ := Option.map_eq_some_iff.1 row
  have accepted : p.accepts u = true := by simpa using List.find?_some found
  exact ⟨p, List.mem_of_find?_eq_some found, Pattern.accepts_iff.1 accepted⟩

theorem not_matches_of_rowOf (row : rowOf table u = none) : ¬ kind.Matches u := by
  rintro ⟨p, mem, matched⟩
  have none := List.find?_eq_none.1 (Option.map_eq_none_iff.1 row) _ mem
  exact none (Pattern.accepts_iff.2 matched)

/-- The row of symbols is the last one. -/
theorem not_number_of_rowOf (row : rowOf table u = some .symbol) (other : kind ≠ .symbol) :
    ¬ kind.Matches u := by
  rintro ⟨p, mem, matched⟩
  obtain ⟨front, last, split, symbols, others⟩ : ∃ front last, table = front ++ last ∧
      (∀ kind ∈ last.map (·.1), kind = TokenKind.symbol) ∧ TokenKind.symbol ∉ front.map (·.1) :=
    ⟨table.take 11, table.drop 11, (List.take_append_drop 11 table).symm, by decide, by decide⟩
  rw [split] at mem row
  rcases List.mem_append.1 mem with mem | mem
  · obtain ⟨⟨kind', q⟩, found⟩ := Option.isSome_iff_exists.1
      (List.find?_isSome.2 ⟨_, mem, Pattern.accepts_iff.2 matched⟩ :
        (front.find? fun (_, p) => p.accepts u).isSome = true)
    rw [rowOf, List.find?_append, found] at row
    cases row
    exact others (List.mem_map_of_mem (List.mem_of_find?_eq_some found))
  · exact other (symbols kind (List.mem_map_of_mem mem))

/-- A token takes the longest match, or some characters where nothing matches. -/
theorem munch_cases (cs : List Char) :
    (∃ kind u, munch cs = (kind, u.length) ∧ Longest cs kind u) ∨
    (∃ n, munch cs = (.unrecognized, n + 1) ∧ Unmatched cs) := by
  rcases search_cases table ⟨none, 0⟩ cs with ⟨kind, u, v, rfl, _, row, best, longest⟩ | ⟨best, none⟩
  · left
    refine ⟨kind, u, ?_, List.prefix_append u v, matches_of_rowOf row, ?_, ?_⟩
    · simp only [munch, best, Option.getD_some, Nat.zero_add]
    · intro kind' w more matched
      rcases Nat.le_total w.length u.length with le | le
      · exact le
      · obtain ⟨t, rfl⟩ := List.prefix_of_prefix_length_le (List.prefix_append u v) more le
        have more := (List.prefix_append_right_inj u).1 more
        by_cases nothing : t = []
        · exact Nat.le_of_eq (by rw [nothing, List.append_nil])
        · exact absurd matched (not_matches_of_rowOf (longest t more nothing))
    · intro kind' matched
      rcases (lexeme_iff.2 (matches_of_rowOf row)).unique (lexeme_iff.2 matched)
        with same | ⟨word, word', symbol⟩
      · exact .inl same
      · by_cases last : kind = .symbol
        · subst last
          by_cases same : kind' = .symbol
          · exact .inl same
          · exact absurd matched (not_number_of_rowOf row same)
        · right
          exact ⟨symbol.resolve_left last,
            (TokenKind.family_eq_symbol_iff.1 word).resolve_left last⟩
  · right
    refine ⟨max (search table ⟨Option.none, 0⟩ cs).reach 1 - 1, ?_, ?_⟩
    · simp only [munch, best, Option.getD_none, Prod.mk.injEq, true_and]
      omega
    · intro kind u more nonempty
      exact not_matches_of_rowOf (none u more nonempty)

/-- There is only one longest match. -/
theorem Longest.unique {kind' : TokenKind} {u' : List Char} (h : Longest cs kind u)
    (h' : Longest cs kind' u') : kind = kind' ∧ u = u' := by
  have lengths : u.length = u'.length :=
    Nat.le_antisymm (h'.longest kind u h.start h.text) (h.longest kind' u' h'.start h'.text)
  have texts : u = u' :=
    (List.prefix_of_prefix_length_le h.start h'.start (Nat.le_of_eq lengths)).eq_of_length lengths
  subst texts
  refine ⟨?_, rfl⟩
  rcases h.first kind' h'.text with same | ⟨rfl, number⟩
  · exact same.symm
  · rcases h'.first kind h.text with same | ⟨rfl, -⟩
    · exact same
    · rfl

theorem munch_of_longest (h : Longest cs kind u) : munch cs = (kind, u.length) := by
  rcases munch_cases cs with ⟨kind', u', munched, longest⟩ | ⟨n, -, unmatched⟩
  · obtain ⟨rfl, rfl⟩ := h.unique longest
    exact munched
  · exact absurd h.text (unmatched kind u h.start h.text.ne_nil)

/-- A text that does not go on into what follows it is the longest match, a
    symbol only if it is no number. -/
theorem longest_of_stops (text : Lexeme kind u) (stops : kind.EndsBefore v)
    (number : kind = .symbol → ∀ kind' : TokenKind, kind'.Matches u → kind' = .symbol) :
    Longest (u ++ v) kind u where
  start := List.prefix_append u v
  text := lexeme_iff.1 text
  longest kind' w more matched := by
    rcases Nat.le_total w.length u.length with le | le
    · exact le
    · obtain ⟨t, rfl⟩ := List.prefix_of_prefix_length_le (List.prefix_append u v) more le
      have more := (List.prefix_append_right_inj u).1 more
      exact Nat.le_of_eq (by rw [text.stops stops more (lexeme_iff.2 matched), List.append_nil])
  first kind' matched := by
    by_cases symbol : kind = .symbol
    · exact .inl ((number symbol kind' matched).trans symbol.symm)
    · rcases text.unique (lexeme_iff.2 matched) with same | ⟨word, -, other⟩
      · exact .inl same
      · exact .inr ⟨other.resolve_left symbol,
          (TokenKind.family_eq_symbol_iff.1 word).resolve_left symbol⟩

/-! ## Tokens side by side -/

/-- The text that some tokens cover. -/
def textOf (ts : List Token) : String := String.join (ts.map Token.text)

@[simp]
theorem textOf_cons (t : Token) (ts : List Token) : textOf (t :: ts) = t.text ++ textOf ts :=
  String.join_cons

@[simp]
theorem textOf_append (ts us : List Token) : textOf (ts ++ us) = textOf ts ++ textOf us := by
  rw [textOf, List.map_append, String.join_append]
  rfl

variable {start : Nat} {ts before after : List Token} {t : Token}

theorem tokensFrom_eq_drop (start n : Nat) (cs : List Char) :
    tokensFrom start n cs = tokensFrom start 0 (cs.drop n) := by
  induction n generalizing cs with
  | zero => rfl
  | succ n ih =>
    cases cs with
    | nil => rfl
    | cons c cs =>
      rw [tokensFrom, ih]
      rfl

/-- The first token has what `munch` takes, and the others follow. -/
theorem tokensFrom_of_munch {n : Nat} (nonempty : cs ≠ []) (positive : 0 < n)
    (taken : munch cs = (kind, n)) :
    tokensFrom start 0 cs = ⟨kind, .ofList (cs.take n), start⟩ ::
      tokensFrom (start + (String.ofList (cs.take n)).utf8ByteSize) 0 (cs.drop n) := by
  obtain ⟨c, cs, rfl⟩ := List.exists_cons_of_ne_nil nonempty
  obtain ⟨n, rfl⟩ := Nat.exists_eq_succ_of_ne_zero (Nat.ne_of_gt positive)
  rw [tokensFrom, taken]
  simp only [Nat.succ_eq_add_one, Nat.add_sub_cancel, tokensFrom_eq_drop _ n, List.drop_succ_cons]

theorem tokensFrom_of_longest (h : Longest (u ++ v) kind u) :
    tokensFrom start 0 (u ++ v) = ⟨kind, .ofList u, start⟩ ::
      tokensFrom (start + (String.ofList u).utf8ByteSize) 0 v := by
  have nonempty := h.text.ne_nil
  rw [tokensFrom_of_munch (List.append_ne_nil_of_left_ne_nil nonempty v)
      (List.length_pos_iff.2 nonempty) (munch_of_longest h),
    List.take_left, List.drop_left]

/-- The tokens of a text that starts so many bytes into the source. -/
inductive Tiles : Nat → List Char → List Token → Prop
  | nil {start : Nat} : Tiles start [] []
  | matched {start : Nat} {kind : TokenKind} {u v : List Char} {ts : List Token}
    (longest : Longest (u ++ v) kind u)
    (rest : Tiles (start + (String.ofList u).utf8ByteSize) v ts) :
    Tiles start (u ++ v) (⟨kind, .ofList u, start⟩ :: ts)
  | unmatched {start : Nat} {u v : List Char} {ts : List Token} (nonempty : u ≠ [])
    (none : Unmatched (u ++ v))
    (rest : Tiles (start + (String.ofList u).utf8ByteSize) v ts) :
    Tiles start (u ++ v) (⟨.unrecognized, .ofList u, start⟩ :: ts)

theorem tiles_tokensFrom (start : Nat) (cs : List Char) :
    Tiles start cs (tokensFrom start 0 cs) := by
  -- what is left after a token is shorter
  induction length : cs.length using Nat.strongRecOn generalizing start cs with
  | _ length' ih =>
    subst length
    by_cases nonempty : cs = []
    · subst nonempty
      exact .nil
    · rcases munch_cases cs with ⟨kind, u, -, longest⟩ | ⟨n, taken, none⟩
      · obtain ⟨v, rfl⟩ := longest.start
        have shorter : v.length < (u ++ v).length := by
          have := List.length_pos_iff.2 longest.text.ne_nil
          rw [List.length_append]
          omega
        rw [tokensFrom_of_longest longest]
        exact .matched longest (ih v.length shorter _ v rfl)
      · have positive := List.length_pos_iff.2 nonempty
        have shorter : (cs.drop (n + 1)).length < cs.length := by
          rw [List.length_drop]
          omega
        have head : cs.take (n + 1) ≠ [] := by
          rw [← List.length_pos_iff, List.length_take]
          omega
        have split := List.take_append_drop (n + 1) cs
        have tiles : Tiles start (cs.take (n + 1) ++ cs.drop (n + 1)) _ :=
          .unmatched head (split.symm ▸ none) (ih _ shorter _ (cs.drop (n + 1)) rfl)
        rw [split] at tiles
        rw [tokensFrom_of_munch nonempty (Nat.succ_pos n) taken]
        exact tiles

theorem tiles_lex (source : String) : Tiles 0 source.toList (lex source) :=
  tiles_tokensFrom 0 source.toList

theorem Tiles.textOf (h : Tiles start cs ts) : textOf ts = .ofList cs := by
  induction h with
  | nil => rfl
  | matched _ _ ih | unmatched _ _ _ ih => rw [textOf_cons, ih, String.ofList_append]

/-- The tokens from one on tile the text from there on. -/
theorem Tiles.split (h : Tiles start cs (before ++ after)) :
    ∃ v, cs = (Syntax.textOf before).toList ++ v ∧
    Tiles (start + (Syntax.textOf before).utf8ByteSize) v after := by
  induction before generalizing start cs with
  | nil => exact ⟨cs, rfl, h⟩
  | cons t before ih =>
    rw [List.cons_append] at h
    cases h with
    | matched _ rest | unmatched _ _ rest =>
      obtain ⟨v, rfl, tiles⟩ := ih rest
      refine ⟨v, ?_, ?_⟩
      · simp
      · rw [textOf_cons, String.utf8ByteSize_append, ← Nat.add_assoc]
        exact tiles

/-- How the tokens of a source lie in it. -/
structure Tiling (source : String) (ts : List Token) : Prop where
  /-- Their texts make up the source. -/
  texts : textOf ts = source
  nonempty : ∀ t ∈ ts, t.text ≠ ""
  /-- Every token starts where the one before it stops, the first with the source. -/
  consecutive : ∀ before t after, ts = before ++ t :: after →
    t.range = ⟨(textOf before).utf8ByteSize, (textOf (before ++ [t])).utf8ByteSize⟩
  /-- Tokens start and stop between characters. -/
  boundaries : ∀ t ∈ ts, String.Pos.Raw.IsValid source ⟨t.range.start⟩ ∧
    String.Pos.Raw.IsValid source ⟨t.range.stop⟩
  /-- A token is the longest match in what remains of the source. -/
  longest : ∀ before t after, ts = before ++ t :: after → t.kind ≠ .unrecognized →
    Longest (textOf (t :: after)).toList t.kind t.text.toList
  /-- Text is unrecognized exactly where nothing matches. -/
  unrecognized : ∀ before t after, ts = before ++ t :: after →
    (t.kind = .unrecognized ↔ Unmatched (textOf (t :: after)).toList)

theorem not_matches_unrecognized : ¬ TokenKind.unrecognized.Matches u := by
  intro h
  cases lexeme_iff.2 h

theorem Tiles.longest (h : Tiles start cs (t :: after)) (known : t.kind ≠ .unrecognized) :
    Longest cs t.kind t.text.toList := by
  cases h with
  | matched longest => simpa using longest
  | unmatched => exact absurd rfl known

theorem Tiles.unrecognized_iff (h : Tiles start cs (t :: after)) :
    t.kind = .unrecognized ↔ Unmatched cs := by
  cases h with
  | @matched _ kind u v _ longest =>
    constructor
    · rintro rfl
      exact absurd longest.text not_matches_unrecognized
    · intro unmatched
      exact absurd longest.text (unmatched kind u longest.start longest.text.ne_nil)
  | unmatched _ none => exact ⟨fun _ => none, fun _ => rfl⟩

theorem Tiles.text_ne (h : Tiles start cs (t :: after)) : t.text ≠ "" := by
  have nonempty : t.text.toList ≠ [] := by
    cases h with
    | matched longest => simpa using longest.text.ne_nil
    | unmatched nonempty => simpa using nonempty
  rintro same
  exact nonempty (by rw [same]; rfl)

theorem Tiles.start_eq (h : Tiles start cs (t :: after)) : t.start = start := by
  cases h with
  | matched | unmatched => rfl

/-- From every token on, the tokens of a source tile what is left of it. -/
theorem tiles_of_lex {source : String} (split : lex source = before ++ t :: after) :
    Tiles (textOf before).utf8ByteSize (textOf (t :: after)).toList (t :: after) := by
  have tiles := tiles_lex source
  rw [split] at tiles
  obtain ⟨v, -, rest⟩ := tiles.split
  rw [Nat.zero_add] at rest
  rwa [rest.textOf, String.toList_ofList]

theorem textOf_lex (source : String) : textOf (lex source) = source := by
  rw [(tiles_lex source).textOf, String.ofList_toList]

theorem range_of_lex {source : String} (split : lex source = before ++ t :: after) :
    t.range = ⟨(textOf before).utf8ByteSize, (textOf (before ++ [t])).utf8ByteSize⟩ := by
  have start := (tiles_of_lex split).start_eq
  simp [Token.range, Token.size, start, textOf]

/-- The offsets of all tokens fit into 32 bits. -/
def Addressable (source : String) : Prop := ∀ t ∈ lex source, t.range.stop < UInt32.size

theorem addressable_of_small {source : String} (small : source.utf8ByteSize < UInt32.size) :
    Addressable source := by
  intro t mem
  obtain ⟨before, after, split⟩ := List.append_of_mem mem
  have whole : textOf (before ++ [t]) ++ textOf after = source := by
    rw [← textOf_append, List.append_assoc, List.singleton_append, ← split, textOf_lex]
  have sizes := congrArg String.utf8ByteSize whole
  rw [String.utf8ByteSize_append] at sizes
  have stop : t.range.stop = (textOf (before ++ [t])).utf8ByteSize := by rw [range_of_lex split]
  omega

/-- The tokens of a source tile it by longest match. -/
theorem tiling_lex (source : String) : Tiling source (lex source) := by
  have texts := textOf_lex source
  constructor
  case texts => exact texts
  case nonempty =>
    intro t mem
    obtain ⟨before, after, split⟩ := List.append_of_mem mem
    exact (tiles_of_lex split).text_ne
  case consecutive => exact fun before t after split => range_of_lex split
  case boundaries =>
    intro t mem
    obtain ⟨before, after, split⟩ := List.append_of_mem mem
    rw [range_of_lex split]
    simp only [String.Pos.Raw.isValid_iff_exists_append]
    rw [split] at texts
    refine ⟨⟨textOf before, textOf (t :: after), ?_, rfl⟩,
      textOf (before ++ [t]), textOf after, ?_, rfl⟩
    · rw [← textOf_append, texts]
    · rw [← textOf_append, List.append_assoc, List.singleton_append, texts]
  case longest =>
    intro before t after split known
    exact (tiles_of_lex split).longest known
  case unrecognized =>
    intro before t after split
    exact (tiles_of_lex split).unrecognized_iff

end Stepper.Syntax
