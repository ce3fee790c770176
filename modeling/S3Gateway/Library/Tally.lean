import Mathlib.Algebra.GroupWithZero.Nat
import Mathlib.Data.List.Induction
import Mathlib.Data.List.Nodup
import Mathlib.Data.List.Perm.Subperm

/-! # Counting by key

A list of items is folded into one entry for each key: the first item that has the key, and how
many have it.  Items and keys are arbitrary. -/

namespace Tally

variable {α κ : Type*} [DecidableEq κ] (key : α → κ)

/-- Counts an item under its key, or enters it under a new one. -/
def add : List (α × Nat) → α → List (α × Nat)
  | [], x => [(x, 1)]
  | (y, n) :: rest, x => if key y = key x then (y, n + 1) :: rest else (y, n) :: add rest x

/-- The entry with one more under the key of `x`. -/
def bump (x : α) (e : α × Nat) : α × Nat := if key e.1 = key x then (e.1, e.2 + 1) else e

variable {key} {xs : List α} {entries : List (α × Nat)} {x : α}

@[simp]
theorem bump_fst (e : α × Nat) : (bump key x e).1 = e.1 := by
  unfold bump
  split <;> rfl

theorem add_of_not_mem (h : key x ∉ entries.map (key ·.1)) : add key entries x = entries ++ [(x, 1)] := by
  induction entries with
  | nil => rfl
  | cons e rest ih =>
    rw [List.map_cons, List.mem_cons, not_or] at h
    rw [add, if_neg (Ne.symm h.1), ih h.2, List.cons_append]

theorem map_bump_of_not_mem (h : key x ∉ entries.map (key ·.1)) : entries.map (bump key x) = entries := by
  rw [List.map_congr_left (g := id), List.map_id]
  intro e he
  refine if_neg fun heq => h ?_
  rw [← heq]
  exact List.mem_map_of_mem he

theorem add_of_mem (hdistinct : (entries.map (key ·.1)).Nodup) (h : key x ∈ entries.map (key ·.1)) :
    add key entries x = entries.map (bump key x) := by
  induction entries with
  | nil => simp at h
  | cons e rest ih =>
    rw [List.map_cons, List.nodup_cons] at hdistinct
    by_cases heq : key e.1 = key x
    · -- no other entry has the key
      rw [heq] at hdistinct
      rw [add, if_pos heq, List.map_cons, map_bump_of_not_mem hdistinct.1, bump, if_pos heq]
    · have hrest := (List.mem_cons.mp h).resolve_left (Ne.symm heq)
      rw [add, if_neg heq, ih hdistinct.2 hrest, List.map_cons, bump, if_neg heq]

/-- The entries tell the items: each key once, with its first item and its count. -/
structure Tallies (key : α → κ) (xs : List α) (entries : List (α × Nat)) : Prop where
  distinct : (entries.map (key ·.1)).Nodup
  complete : ∀ x ∈ xs, key x ∈ entries.map (key ·.1)
  first : ∀ e ∈ entries, xs.find? (fun y => key y = key e.1) = some e.1
  count : ∀ e ∈ entries, e.2 = xs.countP fun y => key y = key e.1
  total : (entries.map Prod.snd).sum = xs.length

theorem sum_map_bump (hdistinct : (entries.map (key ·.1)).Nodup) (h : key x ∈ entries.map (key ·.1)) :
    ((entries.map (bump key x)).map Prod.snd).sum = (entries.map Prod.snd).sum + 1 := by
  induction entries with
  | nil => simp at h
  | cons e rest ih =>
    rw [List.map_cons, List.nodup_cons] at hdistinct
    by_cases heq : key e.1 = key x
    · rw [heq] at hdistinct
      rw [List.map_cons, map_bump_of_not_mem hdistinct.1, bump, if_pos heq]
      simp only [List.map_cons, List.sum_cons]
      omega
    · have hrest := (List.mem_cons.mp h).resolve_left (Ne.symm heq)
      have hsum := ih hdistinct.2 hrest
      rw [List.map_cons, bump, if_neg heq]
      simp only [List.map_cons, List.sum_cons]
      omega

theorem Tallies.bump (h : Tallies key xs entries) (hmem : key x ∈ entries.map (key ·.1)) :
    Tallies key (xs ++ [x]) (entries.map (Tally.bump key x)) := by
  have hkeys : (entries.map (Tally.bump key x)).map (key ·.1) = entries.map (key ·.1) := by
    simp [List.map_map, Function.comp_def]
  refine ⟨by rw [hkeys]; exact h.distinct, ?_, ?_, ?_, ?_⟩
  · rw [hkeys]
    intro y hy
    rcases List.mem_append.mp hy with hy | hy
    · exact h.complete y hy
    · rw [List.mem_singleton.mp hy]
      exact hmem
  · intro e' he'
    obtain ⟨e, he, rfl⟩ := List.mem_map.mp he'
    rw [bump_fst, List.find?_append, h.first e he, Option.some_or]
  · intro e' he'
    obtain ⟨e, he, rfl⟩ := List.mem_map.mp he'
    rw [bump_fst, List.countP_append, ← h.count e he, Tally.bump]
    by_cases heq : key e.1 = key x
    · simp [heq]
    · simp [heq, Ne.symm heq]
  · rw [sum_map_bump h.distinct hmem, h.total, List.length_append, List.length_singleton]

/-- One more item under a new key: no item so far has it. -/
theorem Tallies.enter (h : Tallies key xs entries) (hmem : key x ∉ entries.map (key ·.1)) :
    Tallies key (xs ++ [x]) (entries ++ [(x, 1)]) := by
  -- the new key meets neither an item nor an entry
  have hfresh : ∀ y ∈ xs, key y ≠ key x := fun y hy heq => hmem (heq ▸ h.complete y hy)
  have hother : ∀ e ∈ entries, key x ≠ key e.1 := fun e he heq => hmem (heq ▸ List.mem_map_of_mem he)
  refine ⟨?_, ?_, ?_, ?_, by simp [h.total]⟩
  · rw [List.map_append, List.map_singleton, List.nodup_append]
    refine ⟨h.distinct, List.nodup_singleton _, fun k hk k' hk' heq => ?_⟩
    rw [List.mem_singleton.mp hk'] at heq
    exact hmem (heq ▸ hk)
  · intro y hy
    rw [List.map_append, List.mem_append]
    rcases List.mem_append.mp hy with hy | hy
    · exact .inl (h.complete y hy)
    · exact .inr (by simp [List.mem_singleton.mp hy])
  · intro e he
    rw [List.find?_append]
    rcases List.mem_append.mp he with he | he
    · rw [h.first e he, Option.some_or]
    · obtain rfl := List.mem_singleton.mp he
      have hnone : xs.find? (fun y => key y = key x) = none := by simpa using hfresh
      simp [hnone]
  · intro e he
    rw [List.countP_append]
    rcases List.mem_append.mp he with he | he
    · simp [← h.count e he, hother e he]
    · obtain rfl := List.mem_singleton.mp he
      have hzero : xs.countP (fun y => key y = key x) = 0 := by simpa [List.countP_eq_zero] using hfresh
      simp [hzero]

theorem Tallies.add (h : Tallies key xs entries) (x : α) : Tallies key (xs ++ [x]) (Tally.add key entries x) := by
  by_cases hmem : key x ∈ entries.map (key ·.1)
  · rw [add_of_mem h.distinct hmem]
    exact h.bump hmem
  · rw [add_of_not_mem hmem]
    exact h.enter hmem

theorem tallies_nil : Tallies key [] [] := ⟨List.nodup_nil, by simp, by simp, by simp, rfl⟩

theorem tallies_foldl (key : α → κ) (xs : List α) : Tallies key xs (xs.foldl (Tally.add key) []) := by
  induction xs using List.reverseRecOn with
  | nil => exact tallies_nil
  | append_singleton xs x ih =>
    rw [List.foldl_append]
    exact ih.add x

/-- There are no more entries than keys the items can have. -/
theorem Tallies.length_le (h : Tallies key xs entries) {keys : List κ} (hkeys : ∀ x ∈ xs, key x ∈ keys) :
    entries.length ≤ keys.length := by
  have hsubset : entries.map (key ·.1) ⊆ keys := by
    intro k hk
    obtain ⟨e, he, rfl⟩ := List.mem_map.mp hk
    exact hkeys e.1 (List.mem_of_find?_eq_some (h.first e he))
  simpa using (List.subperm_of_subset h.distinct hsubset).length_le

end Tally
