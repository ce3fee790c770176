import Mathlib.Data.List.AList
import S3Gateway.Library.Fallible

/-! # Loops that may fail

A loop that hands a state from item to item and stops at the first failure is a `foldlM` in
`Except`.  `foldlM_run` is its induction rule; the others follow from it.  The second part is
about a table filled by such a loop. -/

namespace Accumulate

variable {σ τ ι ε : Type} {step : σ → ι → Except ε σ} {s s' : σ} {is : List ι}

/-! ## Runs -/

theorem foldlM_run {R : σ → List ι → σ → Prop} (nil : ∀ s, R s [] s)
    (cons : ∀ s i s₁ is s', step s i = .ok s₁ → R s₁ is s' → R s (i :: is) s')
    (h : is.foldlM step s = .ok s') : R s is s' := by
  induction is generalizing s with
  | nil =>
    cases h
    exact nil _
  | cons i is ih =>
    rw [List.foldlM_cons] at h
    obtain ⟨s₁, hstep, hrest⟩ := Fallible.bind_eq_ok.mp h
    exact cons s i s₁ is s' hstep (ih hrest)

theorem foldlM_mem {P : ι → Prop} (hstep : ∀ s i s', step s i = .ok s' → P i)
    (h : is.foldlM step s = .ok s') : ∀ i ∈ is, P i :=
  foldlM_run (R := fun _ is _ => ∀ i ∈ is, P i) (fun _ => nofun)
    (fun s i s₁ _ _ hi hrest => List.forall_mem_cons.mpr ⟨hstep s i s₁ hi, hrest⟩) h

/-- A run over states is a run over their images. -/
theorem foldlM_image {step' : τ → ι → Except ε τ} (f : σ → τ)
    (hstep : ∀ s i s', step s i = .ok s' → step' (f s) i = .ok (f s'))
    (h : is.foldlM step s = .ok s') : is.foldlM step' (f s) = .ok (f s') := by
  refine foldlM_run (R := fun s is s' => is.foldlM step' (f s) = .ok (f s')) (fun _ => rfl) ?_ h
  intro s i s₁ is s' hi hrest
  rw [List.foldlM_cons, hstep s i s₁ hi]
  exact hrest

/-- A run that fails does so at one of its steps. -/
theorem foldlM_error {e : ε} (h : is.foldlM step s = .error e) : ∃ s, ∃ i ∈ is, step s i = .error e := by
  induction is generalizing s with
  | nil => cases h
  | cons i is ih =>
    rw [List.foldlM_cons] at h
    cases hstep : step s i with
    | error e' =>
      rw [hstep] at h
      cases h
      exact ⟨s, i, List.mem_cons_self, hstep⟩
    | ok s₁ =>
      rw [hstep] at h
      obtain ⟨s₂, j, hj, hfails⟩ := ih h
      exact ⟨s₂, j, List.mem_cons_of_mem _ hj, hfails⟩

theorem failsWith_foldlM {P : ε → Prop} (hstep : ∀ s i, Fallible.FailsWith P (step s i)) (s : σ) :
    Fallible.FailsWith P (is.foldlM step s) := by
  intro e h
  obtain ⟨s, i, -, hi⟩ := foldlM_error h
  exact hstep s i e hi

theorem foldlM_eq_foldl {g : σ → ι → σ} (hstep : ∀ i ∈ is, ∀ s, step s i = .ok (g s i)) (s : σ) :
    is.foldlM step s = .ok (is.foldl g s) := by
  induction is generalizing s with
  | nil => rfl
  | cons i is ih =>
    rw [List.foldlM_cons, hstep i List.mem_cons_self s]
    exact ih (fun j hj => hstep j (List.mem_cons_of_mem _ hj)) (g s i)

/-! ## Tables -/

variable {κ α : Type} [DecidableEq κ]

/-- The table after the entries were written to it in turn. -/
def fill (m : AList fun _ : κ => α) (entries : List (κ × α)) : AList fun _ : κ => α :=
  entries.foldl (fun m e => m.insert e.1 e.2) m

theorem fill_append (m : AList fun _ : κ => α) (xs ys : List (κ × α)) : fill m (xs ++ ys) = fill (fill m xs) ys :=
  List.foldl_append

theorem lookup_fill_of_not_mem {m : AList fun _ : κ => α} {entries : List (κ × α)} {k : κ}
    (h : k ∉ entries.map Prod.fst) : (fill m entries).lookup k = m.lookup k := by
  induction entries generalizing m with
  | nil => rfl
  | cons e entries ih =>
    rw [List.map_cons, List.mem_cons, not_or] at h
    rw [fill, List.foldl_cons, ← fill, ih h.2]
    exact AList.lookup_insert_ne h.1

/-- Entries under different keys do not overwrite one another. -/
theorem lookup_fill_of_mem {m : AList fun _ : κ => α} {entries : List (κ × α)} {k : κ} {a : α}
    (hkeys : (entries.map Prod.fst).Nodup) (h : (k, a) ∈ entries) : (fill m entries).lookup k = some a := by
  induction entries generalizing m with
  | nil => cases h
  | cons e entries ih =>
    rw [List.map_cons, List.nodup_cons] at hkeys
    rw [fill, List.foldl_cons, ← fill]
    cases List.mem_cons.mp h with
    | inl hhere =>
      rw [← hhere] at hkeys ⊢
      rw [lookup_fill_of_not_mem hkeys.1, AList.lookup_insert]
    | inr hlater => exact ih hkeys.2 hlater

/-- A table filled from empty is the list of its entries. -/
theorem lookup_fill_iff {entries : List (κ × α)} (hkeys : (entries.map Prod.fst).Nodup) {k : κ} {a : α} :
    (fill ∅ entries).lookup k = some a ↔ (k, a) ∈ entries := by
  refine ⟨fun h => ?_, lookup_fill_of_mem hkeys⟩
  by_cases hk : k ∈ entries.map Prod.fst
  · obtain ⟨⟨k', a'⟩, hmem, hk'⟩ := List.mem_map.mp hk
    cases hk'
    rw [lookup_fill_of_mem hkeys hmem] at h
    cases h
    exact hmem
  · rw [lookup_fill_of_not_mem hk, AList.lookup_empty] at h
    cases h

end Accumulate
