import Mathlib.Data.List.Basic

/-! # Texts made of separated fields

A text that ends in fields free of a separator can be read back from its end, whatever
stands before them. -/

namespace Fields

variable {α : Type}

/-- Expanding every element of a text expands its fields and its separators. -/
theorem flatMap_intercalate {β : Type} (f : α → List β) (sep : List α) (fields : List (List α)) :
    (sep.intercalate fields).flatMap f = (sep.flatMap f).intercalate (fields.map (·.flatMap f)) := by
  induction fields with
  | nil => rfl
  | cons a rest ih =>
    cases rest with
    | nil => simp [List.intercalate_singleton]
    | cons b rest =>
      rw [List.intercalate_cons_cons, List.flatMap_append, List.flatMap_append, ih]
      simp only [List.map_cons, List.intercalate_cons_cons]

/-- What stands in a text is a separator or stands in one of the fields. -/
theorem mem_intercalate {sep : α} {fields : List (List α)} {x : α}
    (h : x ∈ [sep].intercalate fields) : x = sep ∨ ∃ f ∈ fields, x ∈ f := by
  induction fields with
  | nil => cases h
  | cons a rest ih =>
    cases rest with
    | nil =>
      rw [List.intercalate_singleton] at h
      exact .inr ⟨a, by simp, h⟩
    | cons b rest =>
      rw [List.intercalate_cons_cons, List.append_assoc] at h
      rcases List.mem_append.mp h with h | h
      · exact .inr ⟨a, by simp, h⟩
      · rcases List.mem_cons.mp h with h | h
        · exact .inl h
        · rcases ih h with h | ⟨f, hf, hx⟩
          · exact .inl h
          · exact .inr ⟨f, List.mem_cons_of_mem _ hf, hx⟩

/-- Fields that each end in a separator come before the last one. -/
theorem intercalate_append_last (sep : α) (fields : List (List α)) (last : List α) :
    [sep].intercalate (fields ++ [last]) = fields.flatMap (· ++ [sep]) ++ last := by
  induction fields with
  | nil => simp [List.intercalate_singleton]
  | cons a rest ih =>
    obtain ⟨b, rest', hrest⟩ : ∃ b rest', rest ++ [last] = b :: rest' := by
      cases rest <;> simp
    rw [List.cons_append, hrest, List.intercalate_cons_cons, ← hrest, ih]
    simp

/-- An empty field at the end leaves the separator before it. -/
theorem intercalate_append_nil (sep : α) {fields : List (List α)} (hne : fields ≠ []) :
    [sep].intercalate (fields ++ [[]]) = [sep].intercalate fields ++ [sep] := by
  obtain ⟨front, last, rfl⟩ := (List.eq_nil_or_concat fields).resolve_left hne
  rw [intercalate_append_last, List.concat_eq_append, intercalate_append_last]
  simp

section Read

variable [DecidableEq α] {sep : α}

/-- The fields at the end of a text are those its split ends in. -/
theorem splitOn_append_fields (front : List α) {fields : List (List α)}
    (hfields : ∀ f ∈ fields, sep ∉ f) (hne : fields ≠ []) :
    (front ++ sep :: [sep].intercalate fields).splitOn sep = front.splitOn sep ++ fields := by
  rw [List.splitOn_append_cons_self, List.splitOn_intercalate sep hfields hne]

theorem not_mem_of_mem_splitOn {text field : List α} (h : field ∈ text.splitOn sep) :
    sep ∉ field := by
  induction text generalizing field with
  | nil =>
    simp only [List.splitOn_nil, List.mem_singleton] at h
    simp [h]
  | cons x text ih =>
    rw [List.splitOn_cons_eq_if_modifyHead] at h
    split at h
    · rcases List.mem_cons.mp h with rfl | h
      · simp
      · exact ih h
    · rename_i hx
      obtain ⟨first, rest, hsplit⟩ := List.exists_cons_of_ne_nil (List.splitOn_ne_nil sep text)
      rw [hsplit, List.modifyHead_cons] at h
      rcases List.mem_cons.mp h with rfl | h
      · intro hmem
        rcases List.mem_cons.mp hmem with rfl | hmem
        · simp at hx
        · exact ih (by rw [hsplit]; exact List.mem_cons_self) hmem
      · exact ih (by rw [hsplit]; exact List.mem_cons_of_mem _ h)

theorem splitOn_injective {a b : List α} (h : a.splitOn sep = b.splitOn sep) : a = b := by
  have hjoin := congrArg [sep].intercalate h
  rw [List.intercalate_splitOn, List.intercalate_splitOn] at hjoin
  exact hjoin

omit [DecidableEq α] in
/-- A field free of the separator ends where the separator first stands. -/
theorem append_sep_inj {a a' b b' : List α} (ha : sep ∉ a) (ha' : sep ∉ a')
    (h : a ++ sep :: b = a' ++ sep :: b') : a = a' ∧ b = b' := by
  induction a generalizing a' with
  | nil =>
    cases a' with
    | nil => exact ⟨rfl, (List.cons.inj h).2⟩
    | cons x rest => exact absurd ((List.cons.inj h).1 ▸ List.mem_cons_self) ha'
  | cons x rest ih =>
    cases a' with
    | nil => exact absurd ((List.cons.inj h).1 ▸ List.mem_cons_self) ha
    | cons x' rest' =>
      obtain ⟨rfl, htail⟩ := List.cons.inj h
      obtain ⟨rfl, rfl⟩ := ih (fun hm => ha (List.mem_cons_of_mem _ hm))
        (fun hm => ha' (List.mem_cons_of_mem _ hm)) htail
      exact ⟨rfl, rfl⟩

end Read

/-- The run of marked elements at the end of a list, and the unmarked one before it,
    are determined by the list. -/
theorem trailing_run_unique {p : α → Prop} {front front' run run' : List α} {q q' : α}
    (hq : ¬p q) (hq' : ¬p q') (hrun : ∀ x ∈ run, p x) (hrun' : ∀ x ∈ run', p x)
    (h : front ++ q :: run = front' ++ q' :: run') : front = front' ∧ q = q' ∧ run = run' := by
  rcases List.append_eq_append_iff.mp h with ⟨mid, hfront, hmid⟩ | ⟨mid, hfront, hmid⟩
  · cases mid with
    | nil =>
      obtain ⟨hqq, hrr⟩ := List.cons.inj hmid
      exact ⟨by simpa using hfront.symm, hqq, hrr⟩
    | cons x rest =>
      -- then `q'` is one of the first run
      obtain ⟨-, hrest⟩ := List.cons.inj hmid
      refine absurd (hrun q' ?_) hq'
      rw [hrest]
      simp
  · cases mid with
    | nil =>
      obtain ⟨hqq, hrr⟩ := List.cons.inj hmid
      exact ⟨by simpa using hfront, hqq.symm, hrr.symm⟩
    | cons x rest =>
      obtain ⟨-, hrest⟩ := List.cons.inj hmid
      refine absurd (hrun' q ?_) hq
      rw [hrest]
      simp

/-! ## Labelled fields -/

section Labels

variable (colon semicolon : α)

def labelled (value : List α → List α) (label : List α) : List α := label ++ colon :: value label

omit semicolon in
/-- A label that is followed by a colon in one text and not in the other ends there. -/
theorem label_unique {l l' a a' b b' : List α}
    (hfield : l ++ colon :: a = l' ++ colon :: a') (hlabel : l ++ b = l' ++ b')
    (hb : b.head? ≠ some colon) (hb' : b'.head? ≠ some colon) : l = l' := by
  rcases List.append_eq_append_iff.mp hfield with ⟨mid, rfl, hmid⟩ | ⟨mid, rfl, hmid⟩
  · cases mid with
    | nil => simp
    | cons x rest =>
      obtain ⟨rfl, -⟩ := List.cons.inj hmid
      rw [List.append_assoc, List.append_cancel_left_eq] at hlabel
      exact absurd (by rw [hlabel]; rfl) hb
  · cases mid with
    | nil => simp
    | cons x rest =>
      obtain ⟨rfl, -⟩ := List.cons.inj hmid
      rw [List.append_assoc, List.append_cancel_left_eq] at hlabel
      exact absurd (by rw [← hlabel]; rfl) hb'

/-- Fields and the list of their labels together determine both, even if labels
    contain separators. -/
theorem labels_unique (hne : colon ≠ semicolon) {value value' : List α → List α}
    {labels labels' : List (List α)}
    (hfields : labels.map (labelled colon value) = labels'.map (labelled colon value'))
    (hlabels : [semicolon].intercalate labels = [semicolon].intercalate labels') :
    labels = labels' ∧ ∀ l ∈ labels, value l = value' l := by
  -- on the labels: the separator after a label in one text and the colon after it in the other fix it
  induction labels generalizing labels' with
  | nil =>
    have hnil := List.map_eq_nil_iff.mp hfields.symm
    exact ⟨hnil.symm, by simp⟩
  | cons l rest ih =>
    cases labels' with
    | nil => cases hfields
    | cons l' rest' =>
      obtain ⟨hfield, hrest⟩ := List.cons.inj hfields
      cases rest with
      | nil =>
        obtain rfl : rest' = [] := List.map_eq_nil_iff.mp hrest.symm
        rw [List.intercalate_singleton, List.intercalate_singleton] at hlabels
        subst hlabels
        refine ⟨rfl, fun x hx => ?_⟩
        obtain rfl := List.mem_singleton.mp hx
        exact (List.cons.inj (List.append_cancel_left hfield)).2
      | cons m ms =>
        cases rest' with
        | nil => cases hrest
        | cons m' ms' =>
          rw [List.intercalate_cons_cons, List.intercalate_cons_cons, List.append_assoc,
            List.append_assoc] at hlabels
          obtain rfl := label_unique colon hfield hlabels (by simpa using hne.symm)
            (by simpa using hne.symm)
          have htails := List.append_cancel_left (List.append_cancel_left hlabels)
          obtain ⟨heq, hvalues⟩ := ih hrest htails
          refine ⟨by rw [heq], fun x hx => ?_⟩
          rcases List.mem_cons.mp hx with rfl | hx
          · exact (List.cons.inj (List.append_cancel_left hfield)).2
          · exact hvalues x hx

end Labels

/-- A line stands in a text of lines with a line end on both sides. -/
theorem mem_lines_within (sep : α) {line : List α} {lines : List (List α)} (h : line ∈ lines) :
    sep :: line ++ [sep] <:+: sep :: lines.flatMap (· ++ [sep]) := by
  induction lines with
  | nil => cases h
  | cons first lines ih =>
    rw [List.flatMap_cons]
    rcases List.mem_cons.mp h with rfl | h
    · exact ⟨[], lines.flatMap (· ++ [sep]), by simp⟩
    · obtain ⟨before, after, hsplit⟩ := ih h
      refine ⟨sep :: first ++ before, after, ?_⟩
      rw [List.append_assoc, List.append_assoc, ← List.append_assoc before, hsplit]
      simp

end Fields
