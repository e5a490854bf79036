/-
  The reader accepts exactly its grammar.

  Reading the tokens of a derivation hands its form to what waits for it
  (`run_derives`), unless it is nested too deep (`run_deep`).  Conversely what
  the reader keeps is at every moment the beginning of a derivation of the
  tokens read so far (`Stands`), which every step takes one token further
  (`Stands.step`).
-/
import Stepper.Proofs.Syntax.Atoms

namespace Stepper.Syntax

/-! ## Depth -/

namespace Form

theorem depth_pos (form : Form) : 0 < form.depth := by
  cases form <;> simp [depth]

theorem depthAll_le_iff {forms : List Form} {n : Nat} :
    depthAll forms ≤ n ↔ ∀ form ∈ forms, form.depth ≤ n := by
  induction forms with
  | nil => simp [depthAll]
  | cons form forms ih => rw [depthAll, Nat.max_le, ih, List.forall_mem_cons]

@[simp]
theorem depth_list (items : List Form) : (list items).depth = depthAll items + 1 := by
  rw [depth]

@[simp]
theorem depth_vector (items : List Form) : (vector items).depth = depthAll items + 1 := by
  rw [depth]

@[simp]
theorem depth_tagged (form : Form) : (tagged form).depth = form.depth + 1 := by
  rw [depth]

@[simp]
theorem depth_quote (form : Form) : (list [symbol "quote", form]).depth = form.depth + 1 := by
  have positive := form.depth_pos
  simp only [depth, depthAll]
  omega

@[simp]
theorem depth_ofName (name : String) : (ofName name).depth = 1 := by
  unfold ofName
  split <;> simp [depth]

end Form

@[simp]
theorem depth_bracket (bracket : Bracket) (items : List Form) :
    (bracket.form items).depth = Form.depthAll items + 1 := by
  cases bracket <;> simp [Bracket.form]

theorem Token.Denotes.depth {t : Token} {form : Form} (h : t.Denotes form) : form.depth = 1 := by
  cases h with
  | name => exact Form.depth_ofName t.text
  | _ => simp [Form.depth]

/-! ## One token -/

variable {p p' : Progress} {t : Token} {opened : List Open} {complete read : List Form}
  {bracket : Bracket} {form : Form} {forms : List Form}

theorem begin_of_deep (full : maxNesting ≤ opened.length) :
    Progress.begin ⟨opened, complete⟩ t = .error .tooDeep := by
  rw [Progress.begin, if_pos full]

theorem begin_of_opener (complete : List Form) (room : opened.length < maxNesting)
    (opens : t.kind = bracket.opener) :
    Progress.begin ⟨opened, complete⟩ t = .ok ⟨.items bracket [] :: opened, complete⟩ := by
  rw [Progress.begin, if_neg (Nat.not_le_of_lt room), opens]
  cases bracket <;> rfl

theorem begin_of_quote (complete : List Form) (room : opened.length < maxNesting)
    (quotes : t.kind = .quote) :
    Progress.begin ⟨opened, complete⟩ t = .ok ⟨.quote :: opened, complete⟩ := by
  rw [Progress.begin, if_neg (Nat.not_le_of_lt room), quotes]

theorem begin_of_tag (complete : List Form) (room : opened.length < maxNesting)
    (tags : t.kind = .breakTag) :
    Progress.begin ⟨opened, complete⟩ t = .ok ⟨.tag :: opened, complete⟩ := by
  rw [Progress.begin, if_neg (Nat.not_le_of_lt room), tags]

theorem begin_of_denotes (complete : List Form) (room : opened.length < maxNesting)
    (sound : t.Sound) (denotes : t.Denotes form) :
    Progress.begin ⟨opened, complete⟩ t = .ok (deliver complete opened form) := by
  have read : t.atom = .ok form := (atom_eq_ok_iff sound).2 denotes
  have atom := denotes.isAtom
  rw [Progress.begin, if_neg (Nat.not_le_of_lt room)]
  cases kind : t.kind <;> simp_all [TokenKind.isAtom, Except.map]

/-- What the first token of a form can do. -/
theorem begin_cases (sound : t.Sound) (h : p.begin t = .ok p') : p.opened.length < maxNesting ∧
    ((∃ bracket : Bracket, t.kind = bracket.opener ∧
        p' = { p with opened := .items bracket [] :: p.opened }) ∨
      (t.kind = .quote ∧ p' = { p with opened := .quote :: p.opened }) ∨
      (t.kind = .breakTag ∧ p' = { p with opened := .tag :: p.opened }) ∨
      ∃ form, t.Denotes form ∧ p' = deliver p.complete p.opened form) := by
  rw [Progress.begin] at h
  split at h
  · cases h
  · rename_i shallow
    refine ⟨Nat.lt_of_not_le shallow, ?_⟩
    split at h
    case h_1 opens => exact .inl ⟨.paren, opens, (Except.ok.inj h).symm⟩
    case h_2 opens => exact .inl ⟨.square, opens, (Except.ok.inj h).symm⟩
    case h_3 quotes => exact .inr (.inl ⟨quotes, (Except.ok.inj h).symm⟩)
    case h_4 tags => exact .inr (.inr (.inl ⟨tags, (Except.ok.inj h).symm⟩))
    case h_5 =>
      obtain ⟨form, read, same⟩ := map_eq_ok_iff.1 h
      exact .inr (.inr (.inr ⟨form, (atom_eq_ok_iff sound).1 read, same.symm⟩))

theorem step_closer (closes : t.kind = bracket.closer) :
    Progress.step ⟨.items bracket read :: opened, complete⟩ t =
      .ok (deliver complete opened (bracket.form read.reverse)) := by
  simp [Progress.step, closes]

/-- A token that closes no collection is the first one of a form. -/
theorem step_eq_begin (opens : ∀ bracket : Bracket, t.kind ≠ bracket.closer) :
    p.step t = (p.begin t).mapError (⟨·, t.range⟩) := by
  rw [Progress.step]
  split
  · rw [if_neg (opens _)]
  · rfl

theorem step_of_begin (opens : ∀ bracket : Bracket, t.kind ≠ bracket.closer)
    (h : p.begin t = .ok p') : p.step t = .ok p' := by
  rw [step_eq_begin opens, h]
  rfl

/-- A token closes the innermost collection or is the first one of a form. -/
theorem step_cases (h : p.step t = .ok p') :
    (∃ bracket read opened, p.opened = .items bracket read :: opened ∧ t.kind = bracket.closer ∧
      p' = deliver p.complete opened (bracket.form read.reverse)) ∨ p.begin t = .ok p' := by
  have begun (h : (p.begin t).mapError (ReadError.mk · t.range) = .ok p') : p.begin t = .ok p' := by
    cases first : p.begin t with
    | error fault =>
      rw [first] at h
      cases h
    | ok next =>
      rw [first] at h
      cases h
      rfl
  rw [Progress.step] at h
  split at h
  · rename_i bracket read opened same
    split at h
    · rename_i closes
      exact .inl ⟨bracket, read, opened, same, closes, (Except.ok.inj h).symm⟩
    · exact .inr (begun h)
  · exact .inr (begun h)

theorem finish_eq_ok_iff {stop : Nat} :
    p.finish stop = .ok forms ↔ p.opened = [] ∧ p.complete.reverse = forms := by
  obtain ⟨opened, complete⟩ := p
  cases opened with
  | nil => simp [Progress.finish, Progress.endFault]
  | cons first opened => cases first <;> simp [Progress.finish, Progress.endFault]

/-! ## Reading a derivation -/

namespace Tree

/-- Steps that may refuse a token, but not while these are the complete forms. -/
def Agrees (take : Progress → Token → Except ReadError Progress) (complete : List Form) : Prop :=
  ∀ opened t, take ⟨opened, complete⟩ t = Progress.step ⟨opened, complete⟩ t

variable {take : Progress → Token → Except ReadError Progress}

theorem Derives.opens {tree : Tree} {ts : List Token} (h : tree.Derives form)
    (tokens : tree.tokens = t :: ts) (bracket : Bracket) : t.kind ≠ bracket.closer := by
  obtain ⟨first, rest, tokens', -, opens⟩ := h.exists_first
  obtain ⟨rfl, -⟩ := List.cons.inj (tokens.symm.trans tokens')
  exact opens bracket

/-- Reading starts a derivation with its first token. -/
theorem Derives.run_first {tree : Tree} {ts : List Token} (agrees : Agrees take complete)
    (h : tree.Derives form) (tokens : tree.tokens = t :: ts)
    (begun : Progress.begin ⟨opened, complete⟩ t = .ok p) :
    tree.tokens.foldlM take ⟨opened, complete⟩ = ts.foldlM take p := by
  have taken : take ⟨opened, complete⟩ t = .ok p := by
    rw [agrees, step_of_begin (h.opens tokens) begun]
  rw [tokens, foldlM_cons_ok taken]

mutual
/-- Reading a derivation hands its form to what waits for it. -/
theorem run_derives {tree : Tree} {form : Form} (agrees : Agrees take complete)
    (opened : List Open) (h : tree.Derives form) (sound : ∀ t ∈ tree.tokens, t.Sound)
    (fits : opened.length + form.depth ≤ maxNesting) :
    tree.tokens.foldlM take ⟨opened, complete⟩ = .ok (deliver complete opened form) := by
  have positive := form.depth_pos
  have room : opened.length < maxNesting := by omega
  cases h with
  | @atom token _ denotes =>
    have begun := begin_of_denotes complete room (sound token (by simp [tokens])) denotes
    rw [Derives.run_first agrees (.atom denotes) rfl begun]
    rfl
  | @group bracket opener items closer forms opens closes each =>
    rw [depth_bracket] at fits
    have begun := begin_of_opener complete room opens
    have inside := run_derivesEach agrees bracket [] opened each
      (fun t mem => sound t (by simp [tokens, mem])) (by omega)
    have last : take ⟨.items bracket (forms.reverse ++ []) :: opened, complete⟩ closer =
        .ok (deliver complete opened (bracket.form forms)) := by
      rw [agrees, step_closer closes, List.append_nil, List.reverse_reverse]
    rw [Derives.run_first agrees (.group opens closes each) rfl begun, foldlM_append_ok inside,
      foldlM_cons_ok last]
    rfl
  | @quoted mark item form quotes inner =>
    rw [Form.depth_quote] at fits
    have begun := begin_of_quote complete room quotes
    have inside := run_derives agrees (.quote :: opened) inner
      (fun t mem => sound t (by simp [tokens, mem])) (by rw [List.length_cons]; omega)
    rw [Derives.run_first agrees (.quoted quotes inner) rfl begun, inside, deliver]
  | @tagged mark item form tags inner =>
    rw [Form.depth_tagged] at fits
    have begun := begin_of_tag complete room tags
    have inside := run_derives agrees (.tag :: opened) inner
      (fun t mem => sound t (by simp [tokens, mem])) (by rw [List.length_cons]; omega)
    rw [Derives.run_first agrees (.tagged tags inner) rfl begun, inside, deliver]

/-- Reading derivations inside a collection adds their forms to it. -/
theorem run_derivesEach {trees : List Tree} {forms : List Form} (agrees : Agrees take complete)
    (bracket : Bracket) (read : List Form) (opened : List Open) (h : DerivesEach trees forms)
    (sound : ∀ t ∈ tokensEach trees, t.Sound)
    (fits : opened.length + 1 + Form.depthAll forms ≤ maxNesting) :
    (tokensEach trees).foldlM take ⟨.items bracket read :: opened, complete⟩ =
      .ok ⟨.items bracket (forms.reverse ++ read) :: opened, complete⟩ := by
  cases h with
  | nil => rfl
  | @cons tree trees form forms head tail =>
    rw [Form.depthAll] at fits
    have first := run_derives agrees (.items bracket read :: opened) head
      (fun t mem => sound t (by simp [tokensEach, mem])) (by rw [List.length_cons]; omega)
    have others := run_derivesEach agrees bracket (form :: read) opened tail
      (fun t mem => sound t (by simp [tokensEach, mem])) (by omega)
    rw [tokensEach, foldlM_append_ok first, deliver, others, List.reverse_cons, List.append_assoc]
    rfl
end

mutual
/-- Reading fails where a derivation is nested too deep. -/
theorem run_deep {tree : Tree} {form : Form} (agrees : Agrees take complete)
    (opened : List Open) (h : tree.Derives form) (sound : ∀ t ∈ tree.tokens, t.Sound)
    (room : opened.length ≤ maxNesting) (deep : maxNesting < opened.length + form.depth) :
    ∃ range, tree.tokens.foldlM take ⟨opened, complete⟩ = .error ⟨.tooDeep, range⟩ := by
  by_cases full : maxNesting ≤ opened.length
  · obtain ⟨first, rest, tokens, -, opens⟩ := h.exists_first
    have refused : take ⟨opened, complete⟩ first = .error ⟨.tooDeep, first.range⟩ := by
      rw [agrees, step_eq_begin opens, begin_of_deep full]
      rfl
    exact ⟨first.range, by rw [tokens, foldlM_cons_error refused]⟩
  · rw [Nat.not_le] at full
    cases h with
    | atom denotes =>
      rw [denotes.depth] at deep
      omega
    | @group bracket opener items closer forms opens closes each =>
      rw [depth_bracket] at deep
      have begun := begin_of_opener complete full opens
      obtain ⟨range, inside⟩ := run_deepEach agrees bracket [] opened each
        (fun t mem => sound t (by simp [tokens, mem])) full (by omega)
      refine ⟨range, ?_⟩
      rw [Derives.run_first agrees (.group opens closes each) rfl begun, foldlM_append_error inside]
    | @quoted mark item form quotes inner =>
      rw [Form.depth_quote] at deep
      have begun := begin_of_quote complete full quotes
      rw [Derives.run_first agrees (.quoted quotes inner) rfl begun]
      exact run_deep agrees _ inner (fun t mem => sound t (by simp [tokens, mem])) full
        (by rw [List.length_cons]; omega)
    | @tagged mark item form tags inner =>
      rw [Form.depth_tagged] at deep
      have begun := begin_of_tag complete full tags
      rw [Derives.run_first agrees (.tagged tags inner) rfl begun]
      exact run_deep agrees _ inner (fun t mem => sound t (by simp [tokens, mem])) full
        (by rw [List.length_cons]; omega)

theorem run_deepEach {trees : List Tree} {forms : List Form} (agrees : Agrees take complete)
    (bracket : Bracket) (read : List Form) (opened : List Open) (h : DerivesEach trees forms)
    (sound : ∀ t ∈ tokensEach trees, t.Sound) (room : opened.length < maxNesting)
    (deep : maxNesting < opened.length + 1 + Form.depthAll forms) :
    ∃ range, (tokensEach trees).foldlM take ⟨.items bracket read :: opened, complete⟩ =
      .error ⟨.tooDeep, range⟩ := by
  cases h with
  | nil =>
    rw [Form.depthAll] at deep
    omega
  | @cons tree trees form forms head tail =>
    rw [Form.depthAll] at deep
    have sound' : ∀ t ∈ tree.tokens, t.Sound := fun t mem => sound t (by simp [tokensEach, mem])
    rw [tokensEach]
    by_cases fits : (Open.items bracket read :: opened).length + form.depth ≤ maxNesting
    · rw [foldlM_append_ok (run_derives agrees _ head sound' fits), deliver]
      rw [List.length_cons] at fits
      exact run_deepEach agrees bracket _ opened tail
        (fun t mem => sound t (by simp [tokensEach, mem])) room (by omega)
    · obtain ⟨range, refused⟩ := run_deep agrees (.items bracket read :: opened) head sound'
        room (Nat.lt_of_not_le fits)
      exact ⟨range, foldlM_append_error refused⟩
end

end Tree

/-! ## What has been read -/

open Syntax.Tree

/-- How the tokens read so far belong together: derivations of the complete
    forms, and of every open form its beginning. -/
inductive Stands (complete : List Form) : List Open → List Token → Prop
  | done {trees} (each : DerivesEach trees complete.reverse)
    (shallow : ∀ form ∈ complete, form.depth ≤ maxNesting) :
    Stands complete [] (tokensEach trees)
  | items {bracket read opened opener trees ts} (outer : Stands complete opened ts)
    (room : opened.length < maxNesting) (opens : opener.kind = Bracket.opener bracket)
    (each : DerivesEach trees read.reverse)
    (shallow : ∀ form ∈ read, opened.length + 1 + form.depth ≤ maxNesting) :
    Stands complete (.items bracket read :: opened) (ts ++ opener :: tokensEach trees)
  | quote {opened mark ts} (outer : Stands complete opened ts) (quotes : mark.kind = .quote) :
    Stands complete (.quote :: opened) (ts ++ [mark])
  | tag {opened mark ts} (outer : Stands complete opened ts) (tags : mark.kind = .breakTag) :
    Stands complete (.tag :: opened) (ts ++ [mark])

/-- What the reader keeps stands for the tokens read so far. -/
def Progress.StandsFor (p : Progress) (ts : List Token) : Prop := Stands p.complete p.opened ts

theorem Tree.DerivesEach.snoc {trees : List Tree} {tree : Tree} (h : DerivesEach trees forms)
    (last : tree.Derives form) : DerivesEach (trees ++ [tree]) (forms ++ [form]) := by
  induction trees generalizing forms with
  | nil =>
    cases h
    exact .cons last .nil
  | cons first trees ih =>
    cases h with
    | cons head tail => exact .cons head (ih tail)

theorem Tree.tokensEach_snoc (trees : List Tree) (tree : Tree) :
    tokensEach (trees ++ [tree]) = tokensEach trees ++ tree.tokens := by
  induction trees with
  | nil => simp [tokensEach]
  | cons first trees ih => simp [tokensEach, ih]

variable {ts : List Token} {tree : Tree}

/-- A complete form goes to what waits for it, and its derivation with it. -/
theorem Stands.deliver (h : Stands complete opened ts) (derives : tree.Derives form)
    (fits : opened.length + form.depth ≤ maxNesting) :
    (Syntax.deliver complete opened form).StandsFor (ts ++ tree.tokens) := by
  induction h generalizing tree form with
  | @done trees each shallow =>
    have shallow' : ∀ form' ∈ form :: complete, form'.depth ≤ maxNesting := by
      rw [List.forall_mem_cons]
      exact ⟨by simpa using fits, shallow⟩
    have each' : DerivesEach (trees ++ [tree]) (form :: complete).reverse := by
      rw [List.reverse_cons]
      exact each.snoc derives
    rw [← tokensEach_snoc]
    exact .done each' shallow'
  | @items bracket read opened opener trees ts outer room opens each shallow =>
    have shallow' : ∀ form' ∈ form :: read, opened.length + 1 + form'.depth ≤ maxNesting := by
      rw [List.forall_mem_cons]
      exact ⟨fits, shallow⟩
    have each' : DerivesEach (trees ++ [tree]) (form :: read).reverse := by
      rw [List.reverse_cons]
      exact each.snoc derives
    rw [List.append_assoc, List.cons_append, ← tokensEach_snoc]
    exact .items outer room opens each' shallow'
  | @quote opened mark ts outer quotes ih =>
    rw [List.append_assoc]
    refine ih (.quoted quotes derives) ?_
    rw [Form.depth_quote]
    rw [List.length_cons] at fits
    omega
  | @tag opened mark ts outer tags ih =>
    rw [List.append_assoc]
    refine ih (.tagged tags derives) ?_
    rw [Form.depth_tagged]
    rw [List.length_cons] at fits
    omega

/-- Every step reads one token more of a derivation. -/
theorem Progress.StandsFor.step (h : p.StandsFor ts) (sound : t.Sound) (taken : p.step t = .ok p') :
    p'.StandsFor (ts ++ [t]) := by
  obtain ⟨opened, complete⟩ := p
  rcases step_cases taken with ⟨bracket, read, opened, rfl, closes, rfl⟩ | begun
  · cases h with
    | @items _ _ _ opener trees ts outer room opens each shallow =>
      have fits : opened.length + (bracket.form read.reverse).depth ≤ maxNesting := by
        have inside : Form.depthAll read.reverse ≤ maxNesting - opened.length - 1 := by
          rw [Form.depthAll_le_iff]
          intro form mem
          have := shallow form (List.mem_reverse.1 mem)
          omega
        rw [depth_bracket]
        omega
      rw [List.append_assoc]
      exact outer.deliver (.group opens closes each) fits
  · obtain ⟨room, ⟨bracket, opens, rfl⟩ | ⟨quotes, rfl⟩ | ⟨tags, rfl⟩ | ⟨form, denotes, rfl⟩⟩ :=
      begin_cases sound begun
    · have nothing : DerivesEach [] ([] : List Form).reverse := .nil
      exact .items h room opens nothing (List.forall_mem_nil _)
    · exact .quote h quotes
    · exact .tag h tags
    · refine Stands.deliver h (.atom denotes) ?_
      rw [denotes.depth]
      exact room

theorem standsFor_start : Progress.start.StandsFor [] := by
  have nothing : DerivesEach [] ([] : List Form).reverse := .nil
  exact .done nothing (List.forall_mem_nil _)

/-! ## Sources -/

/-- The trees are derivations of the forms that use up the tokens, and no form
    is nested too deep. -/
structure Parse (ts : List Token) (trees : List Tree) (forms : List Form) : Prop where
  tokens : tokensEach trees = ts
  derives : DerivesEach trees forms
  shallow : ∀ form ∈ forms, form.depth ≤ maxNesting

theorem sound_of_mem_significant {source : String} (mem : t ∈ significant source) : t.Sound :=
  sound_of_mem_lex (List.mem_filter.1 mem |>.1)

variable {source : String}

/-- What the reader accepts has a derivation. -/
theorem exists_parse (read : readForms source = .ok forms) :
    ∃ trees, Parse (significant source) trees forms := by
  obtain ⟨⟨opened, complete⟩, ran, finished⟩ := bind_eq_ok_iff.1 read
  obtain ⟨rfl, rfl⟩ := finish_eq_ok_iff.1 finished
  have stands : Progress.StandsFor ⟨[], complete⟩ (significant source) := by
    refine foldlM_invariant Progress.StandsFor standsFor_start ?_ ran
    intro p p' t ts stands mem taken
    exact stands.step (sound_of_mem_significant mem) taken
  generalize significant source = ts at stands
  cases stands with
  | @done trees each shallow =>
    refine ⟨trees, rfl, each, ?_⟩
    intro form mem
    exact shallow form (List.mem_reverse.1 mem)

/-- Reading derivations side by side gives their forms. -/
theorem run_top {trees : List Tree} (complete : List Form) (h : DerivesEach trees forms)
    (sound : ∀ t ∈ tokensEach trees, t.Sound) (shallow : ∀ form ∈ forms, form.depth ≤ maxNesting) :
    (tokensEach trees).foldlM Progress.step ⟨[], complete⟩ =
      .ok ⟨[], forms.reverse ++ complete⟩ := by
  induction trees generalizing forms complete with
  | nil =>
    cases h
    rfl
  | cons tree trees ih =>
    cases h with
    | @cons _ _ form forms head tail =>
      obtain ⟨fits, others⟩ := List.forall_mem_cons.1 shallow
      have agrees : Agrees Progress.step complete := fun _ _ => rfl
      have first := run_derives agrees [] head
        (fun t mem => sound t (by simp [tokensEach, mem])) (by simpa using fits)
      have later := ih (form :: complete) tail
        (fun t mem => sound t (by simp [tokensEach, mem])) others
      rw [tokensEach, foldlM_append_ok first, deliver, later, List.reverse_cons, List.append_assoc]
      rfl

/-- What has a derivation is accepted. -/
theorem readForms_of_parse {trees : List Tree} (h : Parse (significant source) trees forms) :
    readForms source = .ok forms := by
  have sound : ∀ t ∈ tokensEach trees, t.Sound := by
    rw [h.tokens]
    exact fun t => sound_of_mem_significant
  have ran := run_top [] h.derives sound h.shallow
  rw [h.tokens] at ran
  have finished : Progress.finish source.utf8ByteSize ⟨[], forms.reverse ++ []⟩ = .ok forms :=
    finish_eq_ok_iff.2 ⟨rfl, by rw [List.append_nil, List.reverse_reverse]⟩
  rw [readForms, Progress.start, ran]
  exact finished

/-! ## A single form -/

theorem length_complete_deliver_le (complete : List Form) (opened : List Open) (form : Form) :
    (deliver complete opened form).complete.length ≤ complete.length + 1 := by
  induction opened generalizing form with
  | nil => simp [deliver]
  | cons first opened ih =>
    cases first with
    | items => simp [deliver]
    | quote | tag => exact ih _

/-- A token completes no more than one form. -/
theorem length_complete_step_le (sound : t.Sound) (taken : p.step t = .ok p') :
    p'.complete.length ≤ p.complete.length + 1 := by
  rcases step_cases taken with ⟨_, _, _, -, -, rfl⟩ | begun
  · exact length_complete_deliver_le ..
  · obtain ⟨-, ⟨_, -, rfl⟩ | ⟨-, rfl⟩ | ⟨-, rfl⟩ | ⟨_, -, rfl⟩⟩ := begin_cases sound begun
    · exact Nat.le_succ _
    · exact Nat.le_succ _
    · exact Nat.le_succ _
    · exact length_complete_deliver_le ..

theorem stepUnlessDone_cases (taken : p.stepUnlessDone t = .ok p') :
    p.complete = [] ∧ p.step t = .ok p' := by
  rw [Progress.stepUnlessDone] at taken
  split at taken
  · rename_i empty
    exact ⟨List.isEmpty_iff.1 empty, taken⟩
  · cases taken

/-- Reading that stops at a complete form goes as reading does, to one form at most. -/
theorem run_unlessDone (sound : ∀ t ∈ ts, t.Sound)
    (ran : ts.foldlM Progress.stepUnlessDone .start = .ok p) :
    ts.foldlM Progress.step .start = .ok p ∧ p.complete.length ≤ 1 := by
  refine foldlM_invariant
    (fun p ts => ts.foldlM Progress.step .start = .ok p ∧ p.complete.length ≤ 1)
    ⟨rfl, Nat.zero_le 1⟩ ?_ ran
  rintro p p' t ts ⟨ran, -⟩ mem taken
  obtain ⟨none, taken⟩ := stepUnlessDone_cases taken
  have one := length_complete_step_le (sound t mem) taken
  rw [none] at one
  refine ⟨?_, one⟩
  rw [foldlM_append_ok ran, foldlM_cons_ok taken]
  rfl

/-- The only form is the first of the complete forms. -/
theorem readForm_cases {p : Progress} {stop : Nat} {place : ReadError}
    (read : (p.finish stop >>= fun
      | form :: _ => Except.ok form
      | [] => .error place) = .ok form) : ∃ rest, p.finish stop = .ok (form :: rest) := by
  obtain ⟨forms, finished, first⟩ := bind_eq_ok_iff.1 read
  cases forms with
  | nil => cases first
  | cons form' rest =>
    cases first
    exact ⟨rest, finished⟩

theorem readForms_of_readForm (read : readForm source = .ok form) :
    readForms source = .ok [form] := by
  obtain ⟨p, ran, read⟩ := bind_eq_ok_iff.1 read
  obtain ⟨ran', one⟩ := run_unlessDone (fun t => sound_of_mem_significant) ran
  obtain ⟨rest, finished⟩ := readForm_cases read
  obtain ⟨-, forms⟩ := finish_eq_ok_iff.1 finished
  rw [← List.length_reverse, forms, List.length_cons] at one
  obtain rfl : rest = [] := List.eq_nil_of_length_eq_zero (by omega)
  exact bind_eq_ok_iff.2 ⟨p, ran', finished⟩

theorem readForm_of_readForms (read : readForms source = .ok [form]) :
    readForm source = .ok form := by
  obtain ⟨trees, tokens, derives, shallow⟩ := exists_parse read
  cases derives with
  | @cons tree _ _ _ head tail =>
    cases tail
    rw [tokensEach, tokensEach, List.append_nil] at tokens
    have sound : ∀ t ∈ tree.tokens, t.Sound := by
      rw [tokens]
      exact fun t => sound_of_mem_significant
    have agrees : Agrees Progress.stepUnlessDone [] := fun _ _ => rfl
    have ran := run_derives agrees [] head sound (by simpa using shallow)
    rw [tokens] at ran
    rw [readForm, Progress.start, ran]
    rfl

/-! ## Errors -/

/-- Only the first token of a form is refused. -/
theorem begin_of_step_error {e : ReadError} (refused : p.step t = .error e) :
    p.begin t = .error e.fault ∧ e.range = t.range := by
  have first (refused : (p.begin t).mapError (ReadError.mk · t.range) = .error e) :
      p.begin t = .error e.fault ∧ e.range = t.range := by
    obtain ⟨fault, begun, rfl⟩ := mapError_eq_error_iff.1 refused
    exact ⟨begun, rfl⟩
  rw [Progress.step] at refused
  split at refused
  · split at refused
    · cases refused
    · exact first refused
  · exact first refused

theorem range_of_step_error {e : ReadError} (refused : p.step t = .error e) : e.range = t.range :=
  (begin_of_step_error refused).2

theorem range_of_stepUnlessDone_error {e : ReadError} (refused : p.stepUnlessDone t = .error e) :
    e.range = t.range := by
  rw [Progress.stepUnlessDone] at refused
  split at refused
  · exact range_of_step_error refused
  · cases refused
    rfl

theorem range_of_finish_error {stop : Nat} {e : ReadError} (refused : p.finish stop = .error e) :
    e.range = ⟨stop, stop⟩ := by
  rw [Progress.finish] at refused
  split at refused
  · cases refused
    rfl
  · cases refused

/-- The range is that of a token that counts, or the end of the source. -/
def Concerns (source : String) (range : Range) : Prop :=
  (∃ t ∈ significant source, range = t.range) ∨ range = ⟨source.utf8ByteSize, source.utf8ByteSize⟩

theorem concerns_of_run {e : ReadError} {take : Progress → Token → Except ReadError Progress}
    (each : ∀ p t e, take p t = .error e → e.range = t.range)
    (failed : (significant source).foldlM take .start = .error e) : Concerns source e.range := by
  obtain ⟨p, t, mem, refused⟩ := exists_of_foldlM_error failed
  exact .inl ⟨t, mem, each p t e refused⟩

theorem concerns_of_readForms {e : ReadError} (failed : readForms source = .error e) :
    Concerns source e.range := by
  rcases bind_eq_error_iff.1 failed with ran | ⟨p, -, refused⟩
  · exact concerns_of_run (fun _ _ _ => range_of_step_error) ran
  · exact .inr (range_of_finish_error refused)

theorem concerns_of_readForm {e : ReadError} (failed : readForm source = .error e) :
    Concerns source e.range := by
  rcases bind_eq_error_iff.1 failed with ran | ⟨p, -, failed⟩
  · exact concerns_of_run (fun _ _ _ => range_of_stepUnlessDone_error) ran
  · rcases bind_eq_error_iff.1 failed with refused | ⟨forms, -, first⟩
    · exact .inr (range_of_finish_error refused)
    · cases forms with
      | nil =>
        cases first
        exact .inr rfl
      | cons => cases first

/-! ## The grammar -/

/-- How sources are read. -/
structure Reading (source : String) : Prop where
  /-- Exactly what has a derivation is accepted. -/
  accepts : ∀ forms, readForms source = .ok forms ↔ ∃ trees, Parse (significant source) trees forms
  /-- There is at most one derivation. -/
  unique : ∀ trees forms trees' forms', DerivesEach trees forms → DerivesEach trees' forms' →
    tokensEach trees = significant source → tokensEach trees' = significant source →
    trees = trees' ∧ forms = forms'
  /-- No float literal is refused. -/
  floats : ∀ t ∈ significant source, t.kind = .float → ∃ x, t.Denotes (.float x)
  /-- A single form is read where all forms are one. -/
  single : ∀ form, readForm source = .ok form ↔ readForms source = .ok [form]
  /-- Errors point at a token or at the end. -/
  errors : ∀ e, readForms source = .error e ∨ readForm source = .error e → Concerns source e.range

/-- The reader accepts exactly its grammar. -/
theorem reading_source (source : String) : Reading source where
  accepts forms := by
    constructor
    · exact exists_parse
    · rintro ⟨trees, parse⟩
      exact readForms_of_parse parse
  unique trees forms trees' forms' h h' tokens tokens' := by
    obtain rfl := h.tree_unique h' (tokens.trans tokens'.symm)
    exact ⟨rfl, h.unique h'⟩
  floats t mem float := by
    have text : Lexeme .float t.text.toList :=
      float ▸ sound_of_mem_significant mem (by rw [float]; nofun)
    obtain ⟨x, value⟩ := exists_float text
    exact ⟨x, .float float value⟩
  single form := ⟨readForms_of_readForm, readForm_of_readForms⟩
  errors e failed := failed.elim concerns_of_readForms concerns_of_readForm

end Stepper.Syntax
