import Mathlib.Computability.RegularExpressions

/-! # Patterns

Regular expressions in the forms that patterns are written in: a class of characters, one or more of
something, between `m` and `n` of it.  For classes, what these match is said by lengths and members. -/

namespace Regular

open RegularExpression

variable {α : Type}

/-- `r|s|...`. -/
def anyOf : List (RegularExpression α) → RegularExpression α
  | [] => 0
  | r :: rs => r + anyOf rs

/-- `[...]`, with its characters listed. -/
def oneOf (cs : List α) : RegularExpression α := anyOf (cs.map char)

/-- `r+`. -/
def oneOrMore (r : RegularExpression α) : RegularExpression α := r * star r

/-- `r{m,n}`. -/
def between (r : RegularExpression α) (m n : Nat) : RegularExpression α :=
  anyOf ((List.range' m (n + 1 - m)).map fun k => r ^ k)

/-- The characters that an expression names. -/
def letters : RegularExpression α → List α
  | .zero => []
  | .epsilon => []
  | .char a => [a]
  | .plus r s => letters r ++ letters s
  | .comp r s => letters r ++ letters s
  | .star r => letters r

theorem letters_mul (r s : RegularExpression α) : letters (r * s) = letters r ++ letters s := rfl

theorem mem_letters_anyOf {rs : List (RegularExpression α)} {a : α} :
    a ∈ letters (anyOf rs) ↔ ∃ r ∈ rs, a ∈ letters r := by
  induction rs with
  | nil => simp [anyOf, ← zero_def, letters]
  | cons r rs ih =>
    rw [anyOf, ← plus_def, letters, List.mem_append, ih, List.exists_mem_cons_iff]

theorem mem_letters_of_pow {r : RegularExpression α} {n : Nat} {a : α} (h : a ∈ letters (r ^ n)) :
    a ∈ letters r := by
  induction n with
  | zero => cases h
  | succ n ih =>
    rcases List.mem_append.mp h with h | h
    · exact ih h
    · exact h

theorem mem_letters_of_between {r : RegularExpression α} {m n : Nat} {a : α}
    (h : a ∈ letters (between r m n)) : a ∈ letters r := by
  obtain ⟨s, hs, ha⟩ := mem_letters_anyOf.mp h
  obtain ⟨k, -, rfl⟩ := List.mem_map.mp hs
  exact mem_letters_of_pow ha

variable [DecidableEq α] {cs : List α} {x : List α}

/-- A text that matches has only characters that the expression names. -/
theorem mem_letters_of_rmatch {r : RegularExpression α} (h : r.rmatch x = true) : ∀ a ∈ x, a ∈ letters r := by
  -- on the expression, for every text it matches
  induction r generalizing x with
  | zero => simp at h
  | epsilon =>
    rw [one_def, one_rmatch_iff] at h
    simp [h]
  | char b =>
    rw [char_rmatch_iff] at h
    simp [h, letters]
  | plus r s hr hs =>
    intro a ha
    rw [plus_def, add_rmatch_iff] at h
    rcases h with h | h
    · exact List.mem_append_left _ (hr h a ha)
    · exact List.mem_append_right _ (hs h a ha)
  | comp r s hr hs =>
    intro a ha
    rw [comp_def, mul_rmatch_iff] at h
    obtain ⟨t, u, rfl, ht, hu⟩ := h
    rcases List.mem_append.mp ha with ha | ha
    · exact List.mem_append_left _ (hr ht a ha)
    · exact List.mem_append_right _ (hs hu a ha)
  | star r hr =>
    intro a ha
    rw [star_rmatch_iff] at h
    obtain ⟨parts, rfl, hparts⟩ := h
    obtain ⟨part, hpart, ha⟩ := List.mem_flatten.mp ha
    exact hr (hparts part hpart).2 a ha

theorem anyOf_rmatch_iff {rs : List (RegularExpression α)} :
    (anyOf rs).rmatch x = true ↔ ∃ r ∈ rs, r.rmatch x = true := by
  induction rs with
  | nil => simp [anyOf]
  | cons r rs ih => rw [anyOf, add_rmatch_iff, ih, List.exists_mem_cons_iff]

/-! ## Classes -/

theorem oneOf_rmatch_iff : (oneOf cs).rmatch x = true ↔ ∃ a ∈ cs, x = [a] := by
  simp only [oneOf, anyOf_rmatch_iff, List.mem_map, exists_exists_and_eq_and, char_rmatch_iff]

theorem oneOf_mul_rmatch_iff {r : RegularExpression α} :
    (oneOf cs * r).rmatch x = true ↔ ∃ a rest, x = a :: rest ∧ a ∈ cs ∧ r.rmatch rest = true := by
  rw [mul_rmatch_iff]
  constructor
  · rintro ⟨t, rest, rfl, ht, hrest⟩
    obtain ⟨a, ha, rfl⟩ := oneOf_rmatch_iff.mp ht
    exact ⟨a, rest, rfl, ha, hrest⟩
  · rintro ⟨a, rest, rfl, ha, hrest⟩
    exact ⟨[a], rest, rfl, oneOf_rmatch_iff.mpr ⟨a, ha, rfl⟩, hrest⟩

theorem star_oneOf_rmatch_iff : (star (oneOf cs)).rmatch x = true ↔ ∀ a ∈ x, a ∈ cs := by
  rw [star_rmatch_iff]
  constructor
  · rintro ⟨parts, rfl, hparts⟩ a ha
    obtain ⟨part, hpart, ha⟩ := List.mem_flatten.mp ha
    obtain ⟨b, hb, rfl⟩ := oneOf_rmatch_iff.mp (hparts part hpart).2
    rwa [List.mem_singleton.mp ha]
  · intro h
    -- one part for each character
    refine ⟨x.map fun a => [a], by simp [← List.flatMap_def], ?_⟩
    intro part hpart
    obtain ⟨a, ha, rfl⟩ := List.mem_map.mp hpart
    exact ⟨List.cons_ne_nil a [], oneOf_rmatch_iff.mpr ⟨a, h a ha, rfl⟩⟩

theorem oneOrMore_oneOf_rmatch_iff :
    (oneOrMore (oneOf cs)).rmatch x = true ↔ x ≠ [] ∧ ∀ a ∈ x, a ∈ cs := by
  rw [oneOrMore, oneOf_mul_rmatch_iff]
  constructor
  · rintro ⟨a, rest, rfl, ha, hrest⟩
    rw [star_oneOf_rmatch_iff] at hrest
    exact ⟨List.cons_ne_nil a rest, List.forall_mem_cons.mpr ⟨ha, hrest⟩⟩
  · rintro ⟨hne, hall⟩
    cases x with
    | nil => exact absurd rfl hne
    | cons a rest =>
      obtain ⟨ha, hrest⟩ := List.forall_mem_cons.mp hall
      exact ⟨a, rest, rfl, ha, star_oneOf_rmatch_iff.mpr hrest⟩

/-! ## Repetitions -/

theorem oneOf_pow_rmatch_iff {n : Nat} : (oneOf cs ^ n).rmatch x = true ↔ x.length = n ∧ ∀ a ∈ x, a ∈ cs := by
  induction n generalizing x with
  | zero =>
    show (1 : RegularExpression α).rmatch x = true ↔ _
    rw [one_rmatch_iff, List.length_eq_zero_iff]
    constructor
    · rintro rfl
      simp
    · exact And.left
  | succ n ih =>
    show (oneOf cs ^ n * oneOf cs).rmatch x = true ↔ _
    rw [mul_rmatch_iff]
    constructor
    · rintro ⟨t, u, rfl, ht, hu⟩
      obtain ⟨hlength, hall⟩ := ih.mp ht
      obtain ⟨a, ha, rfl⟩ := oneOf_rmatch_iff.mp hu
      refine ⟨by simp [hlength], ?_⟩
      simpa [or_imp, forall_and] using ⟨hall, ha⟩
    · rintro ⟨hlength, hall⟩
      rcases List.eq_nil_or_concat x with rfl | ⟨t, a, rfl⟩
      · cases hlength
      · simp only [List.concat_eq_append, List.length_append, List.length_singleton, Nat.add_right_cancel_iff,
          List.mem_append, List.mem_singleton, or_imp, forall_and, forall_eq] at hlength hall
        exact ⟨t, [a], by simp, ih.mpr ⟨hlength, hall.1⟩, oneOf_rmatch_iff.mpr ⟨a, hall.2, rfl⟩⟩

theorem between_oneOf_rmatch_iff {m n : Nat} :
    (between (oneOf cs) m n).rmatch x = true ↔ m ≤ x.length ∧ x.length ≤ n ∧ ∀ a ∈ x, a ∈ cs := by
  simp only [between, anyOf_rmatch_iff, List.mem_map, exists_exists_and_eq_and]
  constructor
  · rintro ⟨k, hk, hx⟩
    obtain ⟨hlength, hall⟩ := oneOf_pow_rmatch_iff.mp hx
    rw [List.mem_range'_1] at hk
    exact ⟨by omega, by omega, hall⟩
  · rintro ⟨hm, hn, hall⟩
    exact ⟨x.length, List.mem_range'_1.mpr ⟨hm, by omega⟩, oneOf_pow_rmatch_iff.mpr ⟨rfl, hall⟩⟩

end Regular
