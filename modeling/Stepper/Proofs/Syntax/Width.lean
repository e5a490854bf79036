/-
  How many items a form can have.

  A token has at least one character, and the reader puts at most one form
  into a collection with every token.  So no collection of a source has more
  items than the source has bytes (`narrow_of_readForms`), apart from the two
  that a quotation mark makes.
-/
import Stepper.Syntax.Reader

namespace Stepper.Syntax

/-- Every collection in the form has at most so many items. -/
inductive Form.Narrow (bound : Nat) : Form → Prop
  | nil : Narrow bound .nil
  | bool (b : Bool) : Narrow bound (.bool b)
  | int (n : Int64) : Narrow bound (.int n)
  | float (x : Float) : Narrow bound (.float x)
  | str (s : String) : Narrow bound (.str s)
  | symbol (name : String) : Narrow bound (.symbol name)
  | list {items} (width : items.length ≤ bound) (each : ∀ form ∈ items, Narrow bound form) :
    Narrow bound (.list items)
  | vector {items} (width : items.length ≤ bound) (each : ∀ form ∈ items, Narrow bound form) :
    Narrow bound (.vector items)
  | tagged {form} (inner : Narrow bound form) : Narrow bound (.tagged form)

/-! ## Tokens -/

theorem length_tokensFrom_le (start skip : Nat) (cs : List Char) :
    (tokensFrom start skip cs).length ≤ cs.length := by
  induction cs generalizing start skip with
  | nil => cases skip <;> simp [tokensFrom]
  | cons c cs ih =>
    cases skip with
    | zero =>
      simp only [tokensFrom, List.length_cons]
      exact Nat.succ_le_succ (ih _ _)
    | succ skip => exact Nat.le_succ_of_le (ih start skip)

theorem length_le_size_utf8Encode (cs : List Char) : cs.length ≤ cs.utf8Encode.size := by
  induction cs with
  | nil => simp
  | cons c cs ih =>
    have positive : 0 < c.utf8Size := c.utf8Size_pos
    rw [List.utf8Encode_cons, ByteArray.size_append, List.utf8Encode_singleton,
      List.size_toByteArray, String.length_utf8EncodeChar, List.length_cons]
    omega

/-- A source has at most as many tokens as bytes. -/
theorem length_significant_le (source : String) :
    (significant source).length ≤ source.utf8ByteSize := by
  calc (significant source).length
      ≤ (lex source).length := List.length_filter_le _ _
    _ ≤ source.toList.length := length_tokensFrom_le 0 0 source.toList
    _ ≤ source.toList.utf8Encode.size := length_le_size_utf8Encode _
    _ = source.utf8ByteSize := by rw [String.utf8Encode_toList, String.size_toByteArray]

/-! ## Open forms -/

/-- After so many tokens, a form that is open has at most as many items. -/
def Open.Narrow (bound tokens : Nat) : Open → Prop
  | .items _ read => read.length ≤ tokens ∧ ∀ form ∈ read, form.Narrow bound
  | .quote | .tag => True

/-- The forms that have been read with so many tokens are narrow. -/
structure Progress.Narrow (bound tokens : Nat) (p : Progress) : Prop where
  opened : ∀ o ∈ p.opened, o.Narrow bound tokens
  complete : ∀ form ∈ p.complete, form.Narrow bound

variable {bound tokens : Nat} {form : Form} {p p' : Progress} {t : Token}

theorem Open.Narrow.succ {o : Open} (h : o.Narrow bound tokens) : o.Narrow bound (tokens + 1) := by
  cases o with
  | items bracket read => exact ⟨Nat.le_succ_of_le h.1, h.2⟩
  | quote | tag => exact trivial

theorem narrow_form {items : List Form} (bracket : Bracket) (width : items.length ≤ bound)
    (each : ∀ form ∈ items, form.Narrow bound) : (bracket.form items).Narrow bound := by
  cases bracket with
  | paren => exact .list width each
  | square => exact .vector width each

theorem narrow_ofName (name : String) : (Form.ofName name).Narrow bound := by
  unfold Form.ofName
  split
  · exact .nil
  · exact .bool true
  · exact .bool false
  · exact .symbol _

theorem narrow_atom (read : t.atom = .ok form) : form.Narrow bound := by
  unfold Token.atom at read
  split at read
  · cases number : Number.readInteger? t.text.toList <;> rw [number] at read <;> cases read
    exact .int _
  · cases number : Number.readFloat? t.text.toList <;> rw [number] at read <;> cases read
    exact .float _
  · cases text : unescape (between t.text.toList) <;> rw [text] at read <;> cases read
    exact .str _
  · cases read
    exact narrow_ofName _
  · cases read
  · cases read

/-- With a token at most one form goes to what waits for it. -/
theorem narrow_deliver (two : 2 ≤ bound) {complete : List Form} {opened : List Open}
    (narrow : form.Narrow bound) (h : Progress.Narrow bound tokens ⟨opened, complete⟩) :
    (deliver complete opened form).Narrow bound (tokens + 1) := by
  induction opened generalizing form with
  | nil =>
    refine ⟨fun o mem => absurd mem List.not_mem_nil, fun f mem => ?_⟩
    rcases List.mem_cons.1 mem with rfl | mem
    · exact narrow
    · exact h.complete f mem
  | cons o opened ih =>
    have rest : Progress.Narrow bound tokens ⟨opened, complete⟩ :=
      ⟨fun o mem => h.opened o (List.mem_cons_of_mem _ mem), h.complete⟩
    cases o with
    | items bracket read =>
      obtain ⟨width, each⟩ := h.opened _ List.mem_cons_self
      refine ⟨fun o mem => ?_, h.complete⟩
      rcases List.mem_cons.1 mem with rfl | mem
      · refine ⟨Nat.succ_le_succ width, fun f mem => ?_⟩
        rcases List.mem_cons.1 mem with rfl | mem
        · exact narrow
        · exact each f mem
      · exact (rest.opened o mem).succ
    | quote =>
      refine ih (.list two fun f mem => ?_) rest
      rcases List.mem_cons.1 mem with rfl | mem
      · exact .symbol _
      · exact List.mem_singleton.1 mem ▸ narrow
    | tag => exact ih (.tagged narrow) rest

theorem Progress.Narrow.push (h : p.Narrow bound tokens) {o : Open}
    (narrow : o.Narrow bound (tokens + 1)) :
    Progress.Narrow bound (tokens + 1) { p with opened := o :: p.opened } := by
  refine ⟨fun q mem => ?_, h.complete⟩
  rcases List.mem_cons.1 mem with rfl | mem
  · exact narrow
  · exact (h.opened q mem).succ

theorem Progress.Narrow.begin (two : 2 ≤ bound) (h : p.Narrow bound tokens)
    (begun : p.begin t = .ok p') : p'.Narrow bound (tokens + 1) := by
  unfold Progress.begin at begun
  split at begun
  · cases begun
  · split at begun
    · cases begun
      exact h.push ⟨Nat.zero_le _, fun _ mem => absurd mem List.not_mem_nil⟩
    · cases begun
      exact h.push ⟨Nat.zero_le _, fun _ mem => absurd mem List.not_mem_nil⟩
    · cases begun
      exact h.push trivial
    · cases begun
      exact h.push trivial
    · cases read : t.atom with
      | error fault =>
        rw [read] at begun
        cases begun
      | ok form =>
        rw [read] at begun
        cases begun
        exact narrow_deliver two (narrow_atom read) h

theorem Progress.Narrow.step (two : 2 ≤ bound) (room : tokens ≤ bound)
    (h : p.Narrow bound tokens) (stepped : p.step t = .ok p') : p'.Narrow bound (tokens + 1) := by
  have begins : (p.begin t).mapError (⟨·, t.range⟩ : ReadFault → ReadError) = .ok p' →
      p'.Narrow bound (tokens + 1) := by
    intro begun
    cases first : p.begin t with
    | error fault =>
      rw [first] at begun
      cases begun
    | ok next =>
      rw [first] at begun
      cases begun
      exact h.begin two first
  unfold Progress.step at stepped
  split at stepped
  · rename_i bracket read opened innermost
    split at stepped
    · cases stepped
      have narrow := h.opened
      rw [innermost] at narrow
      obtain ⟨width, each⟩ := narrow _ List.mem_cons_self
      refine narrow_deliver two (narrow_form bracket ?_ ?_) ?_
      · rw [List.length_reverse]
        exact Nat.le_trans width room
      · intro f mem
        exact each f (List.mem_reverse.1 mem)
      · exact ⟨fun o mem => narrow o (List.mem_cons_of_mem _ mem), h.complete⟩
    · exact begins stepped
  · exact begins stepped

theorem Progress.Narrow.run (two : 2 ≤ bound) {ts : List Token}
    (room : tokens + ts.length ≤ bound) (h : p.Narrow bound tokens)
    (ran : ts.foldlM Progress.step p = .ok p') : p'.Narrow bound (tokens + ts.length) := by
  induction ts generalizing p tokens with
  | nil =>
    cases ran
    exact h
  | cons t ts ih =>
    rw [List.foldlM_cons] at ran
    cases stepped : p.step t with
    | error e =>
      rw [stepped] at ran
      cases ran
    | ok next =>
      rw [stepped] at ran
      rw [List.length_cons] at room ⊢
      have room' : tokens + 1 + ts.length ≤ bound := by omega
      have further := ih room' (h.step two (by omega) stepped) ran
      rwa [Nat.add_assoc, Nat.add_comm 1] at further

/-- No collection of a source has more items than the source has bytes, if the
    bound leaves room for the two items of a quotation. -/
theorem narrow_of_readForms {source : String} {forms : List Form}
    (read : readForms source = .ok forms) (two : 2 ≤ bound) (size : source.utf8ByteSize ≤ bound)
    (mem : form ∈ forms) : form.Narrow bound := by
  unfold readForms at read
  cases ran : (significant source).foldlM Progress.step .start with
  | error e =>
    rw [ran] at read
    cases read
  | ok p =>
    rw [ran] at read
    have finished : p.finish source.utf8ByteSize = .ok forms := read
    have start : Progress.start.Narrow bound 0 :=
      ⟨fun _ mem => absurd mem List.not_mem_nil, fun _ mem => absurd mem List.not_mem_nil⟩
    have room : 0 + (significant source).length ≤ bound := by
      rw [Nat.zero_add]
      exact Nat.le_trans (length_significant_le source) size
    unfold Progress.finish at finished
    split at finished
    · cases finished
    · cases finished
      exact (start.run two room ran).complete form (List.mem_reverse.1 mem)

end Stepper.Syntax
