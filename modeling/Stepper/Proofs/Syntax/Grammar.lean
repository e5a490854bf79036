/-
  The grammar of forms.

  A `Tree` is a derivation: it says how the tokens of a form belong together,
  and `Tree.Derives` what form that makes.  The grammar is unambiguous: tokens
  can be put together in one way only (`Tree.DerivesEach.tree_unique`), and make
  one form (`Tree.DerivesEach.unique`).
-/
import Stepper.Syntax.Reader

namespace Stepper.Syntax

open Stepper.Number

/-! ## Atoms -/

/-- The integer that a literal denotes. -/
def integerOf : List Char → Int
  | '-' :: digits => -(naturalOf digits : Int)
  | digits => naturalOf digits

/-- What a backslash before the first character stands for. -/
inductive Escape : Char → Char → Prop
  | feed : Escape 'n' '\n'
  | tab : Escape 't' '\t'
  | quote : Escape '"' '"'
  | backslash : Escape '\\' '\\'

/-- The first text, without quotation marks around it, is how a string literal
    writes the second. -/
inductive Spells : List Char → List Char → Prop
  | nil : Spells [] []
  | plain {c s t} (other : c ≠ '\\') (rest : Spells s t) : Spells (c :: s) (c :: t)
  | escaped {c d s t} (known : Escape c d) (rest : Spells s t) : Spells ('\\' :: c :: s) (d :: t)

/-- The form that a token denotes by itself. -/
inductive Token.Denotes (t : Token) : Form → Prop
  | integer {n : Int64} (kind : t.kind = .integer) (value : n.toInt = integerOf t.text.toList) :
    t.Denotes (.int n)
  | float {x : Float} (kind : t.kind = .float) (value : readFloat? t.text.toList = some x) :
    t.Denotes (.float x)
  | string {body cs : List Char} (kind : t.kind = .string)
    (quoted : t.text.toList = '"' :: (body ++ ['"'])) (spells : Spells body cs) :
    t.Denotes (.str (.ofList cs))
  /-- Among the names only `nil`, `true` and `false` are no symbols. -/
  | name (kind : t.kind = .symbol) : t.Denotes (.ofName t.text)

/-! ## Derivations -/

/-- The token that opens a collection. -/
def Bracket.opener : Bracket → TokenKind
  | paren => .openParen
  | square => .openBracket

/-- How the tokens of a form belong together. -/
inductive Tree where
  | atom (token : Token)
  | group (bracket : Bracket) (opener : Token) (items : List Tree) (closer : Token)
  | quoted (mark : Token) (item : Tree)
  | tagged (mark : Token) (item : Tree)

namespace Tree

mutual
/-- The tokens, in their order. -/
def tokens : Tree → List Token
  | atom token => [token]
  | group _ opener items closer => opener :: (tokensEach items ++ [closer])
  | quoted mark item | tagged mark item => mark :: item.tokens

/-- The tokens of some trees. -/
def tokensEach : List Tree → List Token
  | [] => []
  | tree :: trees => tree.tokens ++ tokensEach trees
end

mutual
/-- The tree is a derivation of the form. -/
inductive Derives : Tree → Form → Prop
  | atom {token form} (denotes : token.Denotes form) : Derives (.atom token) form
  | group {bracket opener items closer forms} (opens : opener.kind = bracket.opener)
    (closes : closer.kind = bracket.closer) (each : DerivesEach items forms) :
    Derives (.group bracket opener items closer) (bracket.form forms)
  | quoted {mark item form} (quotes : mark.kind = .quote) (inner : Derives item form) :
    Derives (.quoted mark item) (.list [.symbol "quote", form])
  | tagged {mark item form} (tags : mark.kind = .breakTag) (inner : Derives item form) :
    Derives (.tagged mark item) (.tagged form)

/-- The trees are derivations of the forms. -/
inductive DerivesEach : List Tree → List Form → Prop
  | nil : DerivesEach [] []
  | cons {tree trees form forms} (head : Derives tree form) (tail : DerivesEach trees forms) :
    DerivesEach (tree :: trees) (form :: forms)
end

end Tree

/-! ## What a derivation makes -/

theorem Escape.unique {c d d' : Char} (h : Escape c d) (h' : Escape c d') : d = d' := by
  cases h <;> cases h' <;> rfl

theorem Spells.unique {s t t' : List Char} (h : Spells s t) (h' : Spells s t') : t = t' := by
  induction h generalizing t' with
  | nil =>
    cases h'
    rfl
  | plain other _ ih =>
    cases h' with
    | plain _ rest => rw [ih rest]
    | escaped => exact absurd rfl other
  | escaped known _ ih =>
    cases h' with
    | plain other => exact absurd rfl other
    | escaped known' rest => rw [known.unique known', ih rest]

/-- The kinds of the tokens that can be forms by themselves. -/
def TokenKind.isAtom : TokenKind → Bool
  | .integer | .float | .string | .symbol => true
  | _ => false

namespace Token.Denotes

variable {t : Token} {form form' : Form}

theorem isAtom (h : t.Denotes form) : t.kind.isAtom = true := by
  cases h with
  | integer kind | float kind | string kind | name kind =>
    rw [kind]
    rfl

theorem unique (h : t.Denotes form) (h' : t.Denotes form') : form = form' := by
  cases h with
  | integer kind value =>
    cases h' with
    | integer _ value' => rw [Int64.toInt_inj.1 (value.trans value'.symm)]
    | float kind' | string kind' | name kind' => cases kind.symm.trans kind'
  | float kind value =>
    cases h' with
    | float _ value' => rw [Option.some_inj.1 (value.symm.trans value')]
    | integer kind' | string kind' | name kind' => cases kind.symm.trans kind'
  | string kind quoted spells =>
    cases h' with
    | string _ quoted' spells' =>
      have bodies := List.append_cancel_right (List.cons.inj (quoted.symm.trans quoted')).2
      subst bodies
      rw [spells.unique spells']
    | integer kind' | float kind' | name kind' => cases kind.symm.trans kind'
  | name kind =>
    cases h' with
    | name => rfl
    | integer kind' | float kind' | string kind' => cases kind.symm.trans kind'

end Token.Denotes

namespace Tree

mutual
theorem Derives.unique {tree : Tree} {form form' : Form} :
    tree.Derives form → tree.Derives form' → form = form'
  | .atom denotes, .atom denotes' => denotes.unique denotes'
  | .group _ _ each, .group _ _ each' => by rw [each.unique each']
  | .quoted _ inner, .quoted _ inner' => by rw [inner.unique inner']
  | .tagged _ inner, .tagged _ inner' => by rw [inner.unique inner']

theorem DerivesEach.unique {trees : List Tree} {forms forms' : List Form} :
    DerivesEach trees forms → DerivesEach trees forms' → forms = forms'
  | .nil, .nil => rfl
  | .cons head tail, .cons head' tail' => by rw [head.unique head', tail.unique tail']
end

/-! ## One derivation -/

/-- The kind of the token that opens a tree; none of its own for an atom. -/
def mark : Tree → Option TokenKind
  | atom _ => none
  | group bracket .. => some bracket.opener
  | quoted .. => some .quote
  | tagged .. => some .breakTag

theorem isAtom_opener (bracket : Bracket) : bracket.opener.isAtom = false := by
  cases bracket <;> rfl

theorem opener_inj {bracket other : Bracket} (same : bracket.opener = other.opener) :
    bracket = other := by
  cases bracket <;> cases other <;> simp_all [Bracket.opener]

theorem opener_ne_closer (bracket other : Bracket) : bracket.opener ≠ other.closer := by
  cases bracket <;> cases other <;> decide

theorem isAtom_closer (bracket : Bracket) : bracket.closer.isAtom = false := by
  cases bracket <;> rfl

/-- The first token tells what kind of tree it is, and closes no collection. -/
theorem Derives.exists_first {tree : Tree} {form : Form} (h : tree.Derives form) :
    ∃ first rest, tree.tokens = first :: rest ∧
      tree.mark = (if first.kind.isAtom then none else some first.kind) ∧
      ∀ bracket : Bracket, first.kind ≠ bracket.closer := by
  cases h with
  | @atom token _ denotes =>
    refine ⟨token, [], rfl, ?_, ?_⟩
    · rw [denotes.isAtom]
      rfl
    · intro bracket closes
      have atom := denotes.isAtom
      rw [closes, isAtom_closer] at atom
      cases atom
  | @group bracket opener items closer _ opens =>
    refine ⟨opener, tokensEach items ++ [closer], rfl, ?_, ?_⟩
    · rw [opens, isAtom_opener]
      rfl
    · intro other closes
      exact opener_ne_closer bracket other (opens.symm.trans closes)
  | @quoted mark item _ quotes =>
    refine ⟨mark, item.tokens, rfl, ?_, ?_⟩
    · rw [quotes]
      rfl
    · intro bracket closes
      cases bracket <;> cases quotes.symm.trans closes
  | @tagged mark item _ tags =>
    refine ⟨mark, item.tokens, rfl, ?_, ?_⟩
    · rw [tags]
      rfl
    · intro bracket closes
      cases bracket <;> cases tags.symm.trans closes

/-- Nothing is left, or a collection is closed. -/
def Closed (ts : List Token) : Prop := ∀ t ∈ ts.head?, ∃ bracket : Bracket, t.kind = bracket.closer

theorem not_closed {tree : Tree} {form : Form} (h : tree.Derives form) (ts : List Token) :
    ¬ Closed (tree.tokens ++ ts) := by
  obtain ⟨first, rest, tokens, -, opens⟩ := h.exists_first
  rw [tokens]
  intro closed
  obtain ⟨bracket, closes⟩ := closed first rfl
  exact opens bracket closes

theorem mark_eq {tree tree' : Tree} {form form' : Form} {ts ts' : List Token}
    (h : tree.Derives form) (h' : tree'.Derives form')
    (same : tree.tokens ++ ts = tree'.tokens ++ ts') :
    tree.mark = tree'.mark := by
  obtain ⟨first, rest, tokens, mark, -⟩ := h.exists_first
  obtain ⟨first', rest', tokens', mark', -⟩ := h'.exists_first
  rw [tokens, tokens', List.cons_append, List.cons_append] at same
  obtain ⟨rfl, -⟩ := List.cons.inj same
  rw [mark, mark']

theorem closed_closer {t : Token} {bracket : Bracket} (closes : t.kind = bracket.closer)
    (ts : List Token) : Closed (t :: ts) := by
  rintro _ ⟨⟩
  exact ⟨bracket, closes⟩

mutual
/-- From the first token of a derivation on, no other derivation is possible. -/
theorem Derives.append_inj {tree tree' : Tree} {form form' : Form} {ts ts' : List Token}
    (h : tree.Derives form) (h' : tree'.Derives form')
    (same : tree.tokens ++ ts = tree'.tokens ++ ts') : tree = tree' ∧ ts = ts' := by
  have marks := mark_eq h h' same
  cases h with
  | atom =>
    cases h' with
    | atom =>
      obtain ⟨rfl, rest⟩ := List.cons.inj same
      exact ⟨rfl, rest⟩
    | group | quoted | tagged => cases marks
  | @group bracket _ items closer _ _ closes each =>
    cases h' with
    | @group bracket' _ items' closer' _ _ closes' each' =>
      cases opener_inj (Option.some_inj.1 marks)
      simp only [tokens, List.cons_append, List.append_assoc, List.cons.injEq, List.nil_append] at same
      obtain ⟨rfl, inside⟩ := same
      obtain ⟨rfl, after⟩ :=
        each.append_inj each' (closed_closer closes ts) (closed_closer closes' ts') inside
      obtain ⟨rfl, rest⟩ := List.cons.inj after
      exact ⟨rfl, rest⟩
    | atom | quoted | tagged => cases bracket <;> cases marks
  | quoted quotes inner =>
    cases h' with
    | quoted quotes' inner' =>
      simp only [tokens, List.cons_append, List.cons.injEq] at same
      obtain ⟨rfl, inside⟩ := same
      obtain ⟨rfl, rest⟩ := inner.append_inj inner' inside
      exact ⟨rfl, rest⟩
    | @group bracket => cases bracket <;> cases marks
    | atom | tagged => cases marks
  | tagged tags inner =>
    cases h' with
    | tagged tags' inner' =>
      simp only [tokens, List.cons_append, List.cons.injEq] at same
      obtain ⟨rfl, inside⟩ := same
      obtain ⟨rfl, rest⟩ := inner.append_inj inner' inside
      exact ⟨rfl, rest⟩
    | @group bracket => cases bracket <;> cases marks
    | atom | quoted => cases marks

theorem DerivesEach.append_inj {trees trees' : List Tree} {forms forms' : List Form}
    {ts ts' : List Token} (h : DerivesEach trees forms) (h' : DerivesEach trees' forms')
    (closed : Closed ts) (closed' : Closed ts')
    (same : tokensEach trees ++ ts = tokensEach trees' ++ ts') : trees = trees' ∧ ts = ts' := by
  cases h with
  | nil =>
    cases h' with
    | nil => exact ⟨rfl, same⟩
    | cons head' =>
      rw [tokensEach, List.nil_append, tokensEach, List.append_assoc] at same
      exact absurd (same ▸ closed) (not_closed head' _)
  | cons head tail =>
    cases h' with
    | nil =>
      rw [tokensEach.eq_def [], List.nil_append, tokensEach, List.append_assoc] at same
      exact absurd (same ▸ closed') (not_closed head _)
    | cons head' tail' =>
      simp only [tokensEach, List.append_assoc] at same
      obtain ⟨rfl, others⟩ := head.append_inj head' same
      obtain ⟨rfl, rest⟩ := tail.append_inj tail' closed closed' others
      exact ⟨rfl, rest⟩
end

/-- Tokens are put together in one way only. -/
theorem DerivesEach.tree_unique {trees trees' : List Tree} {forms forms' : List Form}
    (h : DerivesEach trees forms) (h' : DerivesEach trees' forms')
    (same : tokensEach trees = tokensEach trees') : trees = trees' := by
  have nothing : Closed [] := nofun
  refine (h.append_inj h' nothing nothing ?_).1
  rw [same]

end Tree

/-! ## Nesting -/

namespace Form

mutual
/-- How deep forms are nested in the form, itself included. -/
def depth : Form → Nat
  | list items | vector items => depthAll items + 1
  | tagged form => form.depth + 1
  | _ => 1

/-- The greatest depth of some forms. -/
def depthAll : List Form → Nat
  | [] => 0
  | form :: forms => max form.depth (depthAll forms)
end

end Form

end Stepper.Syntax
