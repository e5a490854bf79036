/-
  Faults that no source has.

  The reader is prepared for more than the lexer gives it: string literals
  without quotation marks, backslashes at their ends, floats that cannot be
  read, blanks and comments.  None of these occurs (`guarded_source`).
-/
import Stepper.Proofs.Syntax.Reading

namespace Stepper.Syntax

/-- The bytes of `s` in the range are those of `part`. -/
def Slice (s : String) (range : Range) (part : String) : Prop :=
  ∃ before after, s = before ++ part ++ after ∧ before.utf8ByteSize = range.start ∧
    before.utf8ByteSize + part.utf8ByteSize = range.stop

/-- The text has quotation marks at its ends, and the rest stands between. -/
structure Token.Quoted (t : Token) : Prop where
  size : 2 ≤ t.size
  marks : ∃ body, t.text = "\"" ++ body ++ "\""
  inside : Slice t.text ⟨1, t.size - 1⟩ (String.ofList (between t.text.toList))

/-- A fault with which the reader never refuses a source. -/
inductive ReadFault.Dead : ReadFault → Prop
  | danglingEscape : Dead .danglingEscape
  | floatLiteral : Dead .floatLiteral
  | trivia {kind : TokenKind} (trivia : kind.isTrivia = true) : Dead (.unexpected kind)

variable {p : Progress} {t : Token} {fault : ReadFault} {e : ReadError}

/-! ## String literals -/

theorem quoted_of_sound (sound : t.Sound) (string : t.kind = .string) : t.Quoted := by
  have lexeme : Lexeme .string t.text.toList := string ▸ sound (by rw [string]; nofun)
  generalize chars : t.text.toList = cs at lexeme
  cases lexeme with
  | @string body closed =>
    have text : t.text = "\"" ++ String.ofList body ++ "\"" := by
      rw [← String.toList_inj, chars]
      simp
    have size : t.size = 1 + (String.ofList body).utf8ByteSize + 1 := by
      rw [Token.size, text, String.utf8ByteSize_append, String.utf8ByteSize_append]
      rfl
    refine ⟨by omega, ⟨_, text⟩, "\"", "\"", ?_, rfl, ?_⟩
    · rw [chars, between_quoted]
      exact text
    · rw [chars, between_quoted]
      change 1 + _ = t.size - 1
      omega

/-- Every backslash of a literal escapes something. -/
theorem unescape_error {body : List Char} (closed : Body body)
    (failed : unescape body = .error fault) : ∃ c, fault = .unknownEscape c := by
  fun_induction unescape body with
  | case1 => cases failed
  | case2 =>
    cases closed with
    | plain _ backslash => exact absurd rfl backslash
  | case3 cs ih | case4 cs ih | case5 cs ih | case6 cs ih =>
    cases closed with
    | plain _ backslash => exact absurd rfl backslash
    | escaped _ rest => exact ih rest (map_eq_error_iff.1 failed)
  | case7 c cs =>
    cases failed
    exact ⟨c, rfl⟩
  | case8 c cs other ih =>
    cases closed with
    | plain _ _ rest => exact ih rest (map_eq_error_iff.1 failed)
    | escaped => exact absurd rfl other

/-! ## Tokens -/

theorem atom_error (sound : t.Sound) (counts : t.kind.isTrivia = false)
    (failed : t.atom = .error fault) : ¬ fault.Dead := by
  unfold Token.atom at failed
  cases kind : t.kind with
  | integer =>
    simp only [kind] at failed
    cases value : Number.readInteger? t.text.toList <;> rw [value] at failed <;> cases failed
    rintro ⟨⟩
  | float =>
    have lexeme : Lexeme .float t.text.toList := kind ▸ sound (by rw [kind]; nofun)
    obtain ⟨x, value⟩ := exists_float lexeme
    simp only [kind, value] at failed
    cases failed
  | string =>
    have lexeme : Lexeme .string t.text.toList := kind ▸ sound (by rw [kind]; nofun)
    generalize t.text.toList = cs at *
    cases lexeme with
    | string closed =>
      simp only [kind, between_quoted, map_eq_error_iff] at failed
      obtain ⟨c, rfl⟩ := unescape_error closed failed
      rintro ⟨⟩
  | symbol =>
    simp only [kind] at failed
    cases failed
  | unrecognized =>
    simp only [kind] at failed
    cases failed
    rintro ⟨⟩
  | whitespace | comment =>
    rw [kind] at counts
    cases counts
  | _ =>
    simp only [kind] at failed
    cases failed
    intro dead
    cases dead with
    | trivia trivia => cases trivia

theorem step_error (sound : t.Sound) (counts : t.kind.isTrivia = false)
    (failed : p.step t = .error e) : ¬ e.fault.Dead := by
  obtain ⟨begun, -⟩ := begin_of_step_error failed
  generalize e.fault = fault at begun
  rw [Progress.begin] at begun
  split at begun
  · cases begun
    rintro ⟨⟩
  · split at begun
    case h_5 => exact atom_error sound counts (map_eq_error_iff.1 begun)
    all_goals cases begun

theorem stepUnlessDone_error (sound : t.Sound) (counts : t.kind.isTrivia = false)
    (failed : p.stepUnlessDone t = .error e) : ¬ e.fault.Dead := by
  rw [Progress.stepUnlessDone] at failed
  split at failed
  · exact step_error sound counts failed
  · cases failed
    rintro ⟨⟩

theorem finish_error {stop : Nat} (failed : p.finish stop = .error e) : ¬ e.fault.Dead := by
  rw [Progress.finish] at failed
  split at failed
  · rename_i fault ends
    cases failed
    rw [Progress.endFault] at ends
    split at ends
    · cases ends
    · cases ends
      rintro ⟨⟩
    · split at ends <;> cases ends <;> rintro ⟨⟩
  · cases failed

/-! ## Sources -/

variable {source : String}

theorem not_trivia_of_mem_significant (mem : t ∈ significant source) : t.kind.isTrivia = false := by
  simpa using (List.mem_filter.1 mem).2

theorem run_error {take : Progress → Token → Except ReadError Progress}
    (each : ∀ p t e, t.Sound → t.kind.isTrivia = false → take p t = .error e → ¬ e.fault.Dead)
    (failed : (significant source).foldlM take .start = .error e) : ¬ e.fault.Dead := by
  obtain ⟨p, t, mem, refused⟩ := exists_of_foldlM_error failed
  exact each p t e (sound_of_mem_significant mem) (not_trivia_of_mem_significant mem) refused

theorem readForms_error (failed : readForms source = .error e) : ¬ e.fault.Dead := by
  rcases bind_eq_error_iff.1 failed with ran | ⟨p, -, refused⟩
  · exact run_error (fun _ _ _ => step_error) ran
  · exact finish_error refused

theorem readForm_error (failed : readForm source = .error e) : ¬ e.fault.Dead := by
  rcases bind_eq_error_iff.1 failed with ran | ⟨p, -, failed⟩
  · exact run_error (fun _ _ _ => stepUnlessDone_error) ran
  · rcases bind_eq_error_iff.1 failed with refused | ⟨forms, -, first⟩
    · exact finish_error refused
    · cases forms with
      | nil =>
        cases first
        rintro ⟨⟩
      | cons => cases first

/-- What the reader need not be prepared for. -/
structure Guarded (source : String) : Prop where
  /-- String literals have their quotation marks. -/
  quoted : ∀ t ∈ lex source, t.kind = .string → t.Quoted
  /-- No blank or comment comes to the reader. -/
  counts : ∀ t ∈ significant source, t.kind.isTrivia = false
  /-- Some faults are never reported. -/
  faults : ∀ e, readForms source = .error e ∨ readForm source = .error e → ¬ e.fault.Dead
  /-- Offsets fit into 32 bits, unless the source is too large for them. -/
  addressable : source.utf8ByteSize < UInt32.size → Addressable source

theorem guarded_source (source : String) : Guarded source where
  quoted _ mem string := quoted_of_sound (sound_of_mem_lex mem) string
  counts _ := not_trivia_of_mem_significant
  faults _ failed := failed.elim readForms_error readForm_error
  addressable := addressable_of_small

end Stepper.Syntax
