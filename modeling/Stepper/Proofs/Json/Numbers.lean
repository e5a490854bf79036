/-
  The numbers that the reader of JSON gives.

  Every value that is read, on its own or inside another one, comes from
  `Reader.value` (`IsRead`), and the natural numbers among them fit into 64
  bits (`IsRead.small`).
-/
import Stepper.Json.Skip

namespace Stepper.Json

open Reader

/-- The value has been read somewhere. -/
def IsRead (v : Json) : Prop :=
  ∃ fuel room cs rest, Reader.value fuel room cs = some (v, rest)

variable {fuel room n : Nat} {cs rest : List Char} {items : List Json}
  {fields : List (String × Json)} {v : Json}

/-! ## Natural numbers -/

theorem small_of_numberOf {negative : Bool} {whole : List Char} {frac : Option (List Char)}
    {exp : Option Int} (read : numberOf negative whole frac exp = some (.natural n)) :
    n < UInt64.size := by
  simp only [numberOf] at read
  split at read
  · rename_i natural
    cases read
    simp only [Bool.and_eq_true, decide_eq_true_eq] at natural
    exact natural.2
  · split at read
    · cases read
    · simp only [floatOf?, Option.bind_eq_bind, Option.bind_eq_some_iff] at read
      obtain ⟨x, -, ⟨⟩⟩ := read

theorem small_of_number (read : Reader.number cs = some (.natural n, rest)) : n < UInt64.size := by
  simp only [Reader.number, Option.bind_eq_bind, Option.bind_eq_some_iff] at read
  obtain ⟨⟨whole, _⟩, -, ⟨frac, _⟩, -, ⟨exp, _⟩, -, m, read, same⟩ := read
  cases same
  exact small_of_numberOf read

/-! ## What is inside a value -/

theorem isRead_items (read : Reader.items fuel room cs = some (items, rest)) :
    ∀ item ∈ items, IsRead item := by
  induction fuel generalizing cs items rest with
  | zero => cases read
  | succ fuel ih =>
    simp only [Reader.items, Option.bind_eq_bind, Option.bind_eq_some_iff] at read
    obtain ⟨⟨v, after⟩, first, read⟩ := read
    split at read
    · simp only [Option.bind_eq_some_iff] at read
      obtain ⟨⟨others, _⟩, later, same⟩ := read
      cases same
      exact List.forall_mem_cons.2 ⟨⟨fuel, room, cs, after, first⟩, ih later⟩
    · cases read
      exact List.forall_mem_singleton.2 ⟨fuel, room, cs, after, first⟩
    · cases read

theorem isRead_fields (read : Reader.fields fuel room cs = some (fields, rest)) :
    ∀ field ∈ fields, IsRead field.2 := by
  induction fuel generalizing cs fields rest with
  | zero => cases read
  | succ fuel ih =>
    simp only [Reader.fields, Option.bind_eq_bind, Option.bind_eq_some_iff] at read
    obtain ⟨_, -, ⟨name, _⟩, -, before, -, ⟨v, after⟩, first, read⟩ := read
    split at read
    · simp only [Option.bind_eq_some_iff] at read
      obtain ⟨⟨others, _⟩, later, same⟩ := read
      cases same
      exact List.forall_mem_cons.2 ⟨⟨fuel, room, before, after, first⟩, ih later⟩
    · cases read
      exact List.forall_mem_singleton.2 ⟨fuel, room, before, after, first⟩
    · cases read

/-- The values of the fields that are wanted are read like all others. -/
theorem isRead_fieldsNamed {names : List String}
    (read : fieldsNamed names fuel cs = some (fields, rest)) : ∀ field ∈ fields, IsRead field.2 := by
  induction fuel generalizing cs fields rest with
  | zero => cases read
  | succ fuel ih =>
    simp only [fieldsNamed, Option.bind_eq_bind, Option.bind_eq_some_iff] at read
    obtain ⟨_, -, ⟨name, _⟩, -, before, -, ⟨v?, after⟩, first, read⟩ := read
    have front : ∀ field ∈ v?.toList.map (name, ·), IsRead field.2 := by
      unfold fieldIf at first
      split at first
      · obtain ⟨⟨v, _⟩, wanted, same⟩ := Option.map_eq_some_iff.1 first
        cases same
        exact List.forall_mem_singleton.2 ⟨fuel, _, before, after, wanted⟩
      · obtain ⟨_, -, same⟩ := Option.map_eq_some_iff.1 first
        cases same
        exact List.forall_mem_nil _
    split at read
    · simp only [Option.bind_eq_some_iff] at read
      obtain ⟨⟨others, _⟩, later, same⟩ := read
      cases same
      intro field mem
      exact (List.mem_append.1 mem).elim (front field) (ih later field)
    · cases read
      exact front
    · cases read

theorem word_eq_some {w : List Char} {value : Json} (read : word w value cs = some (v, rest)) :
    v = value := by
  unfold word at read
  split at read <;> cases read
  rfl

/-- What a value that is read can be. -/
inductive Content : Json → Prop
  | null : Content .null
  | bool (b : Bool) : Content (.bool b)
  | number {m : Number} (small : ∀ n, m = .natural n → n < UInt64.size) : Content (.number m)
  | string (s : String) : Content (.string s)
  | array {items : List Json} (each : ∀ item ∈ items, IsRead item) : Content (.array items)
  | object {fields : List (String × Json)} (each : ∀ field ∈ fields, IsRead field.2) :
    Content (.object fields)

theorem IsRead.content (h : IsRead v) : Content v := by
  obtain ⟨fuel, room, cs, rest, read⟩ := h
  cases fuel with
  | zero => cases read
  | succ fuel =>
    rw [Reader.value] at read
    split at read
    case h_1 =>
      rw [word_eq_some read]
      exact .null
    case h_2 =>
      rw [word_eq_some read]
      exact .bool true
    case h_3 =>
      rw [word_eq_some read]
      exact .bool false
    case h_4 =>
      obtain ⟨⟨s, _⟩, -, same⟩ := Option.map_eq_some_iff.1 read
      cases same
      exact .string s
    case h_5 =>
      split at read
      · cases read
      · split at read
        · cases read
          exact .array (List.forall_mem_nil _)
        · obtain ⟨⟨items, _⟩, read, same⟩ := Option.map_eq_some_iff.1 read
          cases same
          exact .array (isRead_items read)
    case h_6 =>
      split at read
      · cases read
      · split at read
        · cases read
          exact .object (List.forall_mem_nil _)
        · obtain ⟨⟨fields, _⟩, read, same⟩ := Option.map_eq_some_iff.1 read
          cases same
          exact .object (isRead_fields read)
    case h_7 =>
      obtain ⟨⟨m, _⟩, read, same⟩ := Option.map_eq_some_iff.1 read
      cases same
      refine .number ?_
      rintro n rfl
      exact small_of_number read

/-- A natural number that is read fits into 64 bits. -/
theorem IsRead.small (h : IsRead (.number (.natural n))) : n < UInt64.size := by
  cases h.content with
  | number small => exact small n rfl

theorem isRead_of_parse? {text : String} (read : parse? text = some v) : IsRead v := by
  simp only [parse?] at read
  split at read
  · rename_i json rest value
    split at read
    · cases read
      exact ⟨_, _, _, rest, value⟩
    · cases read
  · cases read

theorem isRead_of_fieldsNamed? {names : List String} {text : String}
    (read : fieldsNamed? names text = some fields) : ∀ field ∈ fields, IsRead field.2 := by
  simp only [fieldsNamed?, Option.bind_eq_bind, Option.bind_eq_some_iff] at read
  obtain ⟨_, -, ⟨fields', rest⟩, read, same⟩ := read
  split at same
  · cases same
    exact isRead_fieldsNamed read
  · cases same

end Stepper.Json
