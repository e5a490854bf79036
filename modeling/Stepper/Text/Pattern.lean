/-
  Patterns over characters and how a text runs through them.

  * `Pattern.Matches p s` says, by rules, that `s` belongs to `p`;
  * `Pattern.after c p` is what is left of `p` once `c` has been read: the
    texts that complete it (`matches_after`), and `Pattern.acceptsEmpty p`
    says whether nothing more is needed (`acceptsEmpty_iff`);
  * `Pattern.accepts p s` reads `s` character by character, and agrees with
    `Matches` (`accepts_iff`).
-/
namespace Stepper.Text

/-- A regular pattern.  A class of characters is given by its test, which some
    character always passes. -/
inductive Pattern where
  | never
  | empty
  | one (test : Char → Bool)
  | seq (first second : Pattern)
  | either (left right : Pattern)
  | many (body : Pattern)

namespace Pattern

/-- The texts of a pattern. -/
inductive Matches : Pattern → List Char → Prop
  | empty : Matches .empty []
  | one {test c} : test c = true → Matches (.one test) [c]
  | seq {p q s t} : Matches p s → Matches q t → Matches (.seq p q) (s ++ t)
  | left {p q s} : Matches p s → Matches (.either p q) s
  | right {p q s} : Matches q s → Matches (.either p q) s
  | manyNil {p} : Matches (.many p) []
  | manyCons {p s t} : Matches p s → Matches (.many p) t → Matches (.many p) (s ++ t)

/-! ## Building patterns -/

/-- Exactly the given character. -/
def char (c : Char) : Pattern := .one (· == c)

/-- Exactly the given text. -/
def text : List Char → Pattern
  | [] => .empty
  | [c] => char c
  | c :: cs => .seq (char c) (text cs)

/-- One or more. -/
def oneOrMore (p : Pattern) : Pattern := .seq p (.many p)

/-- At most one. -/
def optional (p : Pattern) : Pattern := .either p .empty

/-- Sequencing that keeps `never` and `empty` from piling up. -/
def andThen : Pattern → Pattern → Pattern
  | .never, _ => .never
  | .empty, q => q
  | p, q => .seq p q

/-- Choice that keeps `never` from piling up. -/
def or : Pattern → Pattern → Pattern
  | .never, q => q
  | p, .never => p
  | p, q => .either p q

/-! ## Reading a character -/

/-- Whether the empty text belongs to the pattern. -/
def acceptsEmpty : Pattern → Bool
  | .never => false
  | .empty => true
  | .one _ => false
  | .seq p q => p.acceptsEmpty && q.acceptsEmpty
  | .either p q => p.acceptsEmpty || q.acceptsEmpty
  | .many _ => true

/-- What may still follow once `c` has been read. -/
def after (c : Char) : Pattern → Pattern
  | .never => .never
  | .empty => .never
  | .one test => if test c then .empty else .never
  | .seq p q =>
    if p.acceptsEmpty then (p.after c |>.andThen q).or (q.after c) else (p.after c).andThen q
  | .either p q => (p.after c).or (q.after c)
  | .many p => (p.after c).andThen (.many p)

/-- Whether no text at all can follow.  Exact for what `after` builds. -/
def isNever : Pattern → Bool
  | .never => true
  | _ => false

/-- Whether the text belongs to the pattern, reading from the left. -/
def accepts : Pattern → List Char → Bool
  | p, [] => p.acceptsEmpty
  | p, c :: cs => (p.after c).accepts cs

/-! ## Agreement with the rules -/

theorem matches_nil_iff {p : Pattern} : Matches p [] ↔ p.acceptsEmpty = true := by
  induction p with
  | never => constructor <;> intro h <;> cases h
  | empty => exact ⟨fun _ => rfl, fun _ => .empty⟩
  | one test => constructor <;> intro h <;> cases h
  | seq p q ihp ihq =>
    simp only [acceptsEmpty, Bool.and_eq_true, ← ihp, ← ihq]
    constructor
    · intro h
      generalize hs : ([] : List Char) = s at h
      cases h with
      | seq hp hq =>
        obtain ⟨rfl, rfl⟩ := List.append_eq_nil_iff.1 hs.symm
        exact ⟨hp, hq⟩
    · rintro ⟨hp, hq⟩
      exact .seq hp hq
  | either p q ihp ihq =>
    simp only [acceptsEmpty, Bool.or_eq_true, ← ihp, ← ihq]
    constructor
    · intro h
      cases h with
      | left h => exact Or.inl h
      | right h => exact Or.inr h
    · rintro (h | h)
      · exact .left h
      · exact .right h
  | many p _ => exact ⟨fun _ => rfl, fun _ => .manyNil⟩

theorem not_matches_never {s : List Char} : ¬ Matches .never s := nofun

theorem matches_seq_iff {p q : Pattern} {u : List Char} :
    Matches (.seq p q) u ↔ ∃ s t, u = s ++ t ∧ Matches p s ∧ Matches q t := by
  constructor
  · intro h
    cases h with
    | seq hp hq => exact ⟨_, _, rfl, hp, hq⟩
  · rintro ⟨s, t, rfl, hp, hq⟩
    exact .seq hp hq

theorem matches_either_iff {p q : Pattern} {s : List Char} :
    Matches (.either p q) s ↔ Matches p s ∨ Matches q s := by
  constructor
  · intro h
    cases h with
    | left h => exact Or.inl h
    | right h => exact Or.inr h
  · rintro (h | h)
    · exact .left h
    · exact .right h

theorem matches_empty_iff {s : List Char} : Matches .empty s ↔ s = [] := by
  constructor
  · intro h
    cases h
    rfl
  · rintro rfl
    exact .empty

theorem matches_one_iff {test : Char → Bool} {s : List Char} :
    Matches (.one test) s ↔ ∃ c, s = [c] ∧ test c = true := by
  constructor
  · intro h
    cases h with
    | one h => exact ⟨_, rfl, h⟩
  · rintro ⟨c, rfl, h⟩
    exact .one h

theorem matches_andThen {p q : Pattern} {s : List Char} :
    Matches (p.andThen q) s ↔ Matches (.seq p q) s := by
  cases p with
  | never =>
    simp only [andThen, matches_seq_iff, not_matches_never, false_and, and_false, exists_false]
  | empty =>
    rw [andThen, matches_seq_iff]
    constructor
    · intro h
      exact ⟨[], s, rfl, .empty, h⟩
    · rintro ⟨t, u, rfl, ht, hu⟩
      rw [matches_empty_iff.1 ht]
      exact hu
  | _ => simp [andThen]

theorem matches_or {p q : Pattern} {s : List Char} :
    Matches (p.or q) s ↔ Matches (.either p q) s := by
  cases p <;> cases q <;> simp [or, matches_either_iff, not_matches_never]

/-- A nonempty text of a repetition starts with a nonempty text of its body. -/
theorem matches_many_cons_iff {p : Pattern} {c : Char} {s : List Char} :
    Matches (.many p) (c :: s) ↔
      ∃ t u, s = t ++ u ∧ Matches p (c :: t) ∧ Matches (.many p) u := by
  constructor
  · intro h
    generalize hq : Pattern.many p = q at h
    generalize hs : c :: s = w at h
    induction h with
    | manyNil => cases hs
    | @manyCons p' t u hp hu _ ih =>
      cases hq
      cases t with
      | nil => exact ih rfl hs
      | cons d t =>
        obtain ⟨rfl, rfl⟩ := List.cons.inj hs
        exact ⟨t, u, rfl, hp, hu⟩
    | _ => cases hq
  · rintro ⟨t, u, rfl, hp, hu⟩
    exact .manyCons hp hu

theorem matches_after {p : Pattern} {c : Char} {s : List Char} :
    Matches (p.after c) s ↔ Matches p (c :: s) := by
  induction p generalizing s with
  | never => simp [after, not_matches_never]
  | empty => simp [after, not_matches_never, matches_empty_iff]
  | one test =>
    simp only [after, matches_one_iff, List.cons.injEq]
    split
    · rename_i h
      simp only [matches_empty_iff]
      exact ⟨fun hs => ⟨c, ⟨rfl, hs⟩, h⟩, fun ⟨_, ⟨_, hs⟩, _⟩ => hs⟩
    · rename_i h
      refine ⟨fun hs => absurd hs not_matches_never, ?_⟩
      rintro ⟨d, ⟨rfl, _⟩, hd⟩
      exact absurd hd h
  | seq p q ihp ihq =>
    have split : Matches (.seq p q) (c :: s) ↔
        Matches (.seq (p.after c) q) s ∨ (Matches p [] ∧ Matches (q.after c) s) := by
      simp only [matches_seq_iff, ihp, ihq]
      constructor
      · rintro ⟨t, u, h, hp, hq⟩
        cases t with
        | nil =>
          rw [List.nil_append] at h
          exact Or.inr ⟨hp, h ▸ hq⟩
        | cons d t =>
          obtain ⟨rfl, rfl⟩ := List.cons.inj h
          exact Or.inl ⟨t, u, rfl, hp, hq⟩
      · rintro (⟨t, u, rfl, hp, hq⟩ | ⟨hp, hq⟩)
        · exact ⟨c :: t, u, rfl, hp, hq⟩
        · exact ⟨[], c :: s, rfl, hp, hq⟩
    rw [split, matches_nil_iff, after]
    by_cases h : p.acceptsEmpty = true
    · simp only [h, if_true, true_and]
      rw [matches_or, matches_either_iff, matches_andThen]
    · simp only [h, Bool.false_eq_true, if_false, false_and, or_false]
      rw [matches_andThen]
  | either p q ihp ihq =>
    simp only [after, matches_or, matches_either_iff, ihp, ihq]
  | many p ihp =>
    simp only [after, matches_andThen, matches_seq_iff, ihp, matches_many_cons_iff]

/-- Reading from the left decides membership. -/
theorem accepts_iff {p : Pattern} {s : List Char} : p.accepts s = true ↔ Matches p s := by
  induction s generalizing p with
  | nil => rw [accepts, matches_nil_iff]
  | cons c s ih => rw [accepts, ih, matches_after]

end Pattern

end Stepper.Text
