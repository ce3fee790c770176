import Mathlib.Data.List.Dedup
import Mathlib.Data.List.Perm.Basic

/-! # Multimaps and their sorted listing

A multimap is its pairs in the order they were added.  Listing the keys in a fixed
order, and under each key its values in a fixed order, forgets the order of the pairs
and nothing else. -/

namespace Multimap

/-- A way to put lists in order that only looks at their members. -/
structure Sorting (α : Type) where
  sort : List α → List α
  perm : ∀ l, (sort l).Perm l
  eq_of_perm : ∀ {l₁ l₂}, l₁.Perm l₂ → sort l₁ = sort l₂

theorem Sorting.eq_iff {α : Type} (s : Sorting α) {l₁ l₂ : List α} :
    s.sort l₁ = s.sort l₂ ↔ l₁.Perm l₂ := by
  constructor
  · intro h
    have hsorted : (s.sort l₁).Perm l₂ := by
      rw [h]
      exact s.perm l₂
    exact (s.perm l₁).symm.trans hsorted
  · exact s.eq_of_perm

variable {K V : Type} [DecidableEq K]

def valuesOf (m : List (K × V)) (k : K) : List V := (m.filter (·.1 = k)).map (·.2)

def keys (m : List (K × V)) : List K := (m.map (·.1)).dedup

theorem mem_keys_iff {m : List (K × V)} {k : K} : k ∈ keys m ↔ valuesOf m k ≠ [] := by
  unfold keys valuesOf
  rw [List.mem_dedup, List.mem_map, ne_eq, List.map_eq_nil_iff, List.filter_eq_nil_iff]
  simp

/-- Which keys there are depends only on which keys have values. -/
theorem keys_perm {m₁ m₂ : List (K × V)} (h : ∀ k, valuesOf m₁ k = [] ↔ valuesOf m₂ k = []) :
    (keys m₁).Perm (keys m₂) := by
  refine (List.perm_ext_iff_of_nodup (List.nodup_dedup _) (List.nodup_dedup _)).mpr fun k => ?_
  change k ∈ keys m₁ ↔ k ∈ keys m₂
  rw [mem_keys_iff, mem_keys_iff, ne_eq, ne_eq, h k]

theorem valuesOf_append (m m' : List (K × V)) (k : K) :
    valuesOf (m ++ m') k = valuesOf m k ++ valuesOf m' k := by
  simp [valuesOf]

theorem valuesOf_map_pair (k k' : K) (l : List V) :
    valuesOf (l.map (k', ·)) k = if k' = k then l else [] := by
  induction l with
  | nil => simp [valuesOf]
  | cons v rest ih =>
    have hcons : valuesOf ((v :: rest).map (k', ·)) k =
        (if k' = k then [v] else []) ++ valuesOf (rest.map (k', ·)) k := by
      by_cases hk : k' = k
      · simp [valuesOf, hk]
      · simp [valuesOf, hk]
    rw [hcons, ih]
    by_cases hk : k' = k
    · simp [hk]
    · simp [hk]

/-- The values under one key among lists of pairs, one for each of some keys. -/
theorem valuesOf_flatMap {ks : List K} (hks : ks.Nodup) (f : K → List V) (k : K) :
    valuesOf (ks.flatMap fun k' => (f k').map (k', ·)) k = if k ∈ ks then f k else [] := by
  induction ks with
  | nil => rfl
  | cons k' rest ih =>
    obtain ⟨hk', hrest⟩ := List.nodup_cons.mp hks
    rw [List.flatMap_cons, valuesOf_append, valuesOf_map_pair, ih hrest]
    by_cases hk : k' = k
    · subst hk
      simp [hk']
    · simp [hk, Ne.symm hk]

section Listing

variable (sk : Sorting K) (sv : Sorting V)

/-- The values of a multimap whose keys are listed in some order and whose values are
    sorted under each. -/
theorem valuesOf_sorted {m : List (K × V)} {ks : List K} (hks : ks.Perm (keys m)) (k : K) :
    valuesOf (ks.flatMap fun k => (sv.sort (valuesOf m k)).map (k, ·)) k =
      sv.sort (valuesOf m k) := by
  have hnodup : ks.Nodup := hks.nodup_iff.mpr (List.nodup_dedup _)
  rw [valuesOf_flatMap hnodup fun k => sv.sort (valuesOf m k)]
  split
  · rfl
  · rename_i hk
    rw [hks.mem_iff, mem_keys_iff, ne_eq, not_not] at hk
    rw [hk]
    exact (List.Perm.eq_nil (sv.perm [])).symm

/-- The pairs by sorted key, then by sorted value. -/
def listing (m : List (K × V)) : List (K × V) :=
  (sk.sort (keys m)).flatMap fun k => (sv.sort (valuesOf m k)).map (k, ·)

theorem valuesOf_listing (m : List (K × V)) (k : K) :
    valuesOf (listing sk sv m) k = sv.sort (valuesOf m k) := valuesOf_sorted sv (sk.perm _) k

/-- Two multimaps are listed alike exactly when they have the same values, with
    multiplicity, under every key. -/
theorem listing_eq_iff (m₁ m₂ : List (K × V)) :
    listing sk sv m₁ = listing sk sv m₂ ↔ ∀ k, (valuesOf m₁ k).Perm (valuesOf m₂ k) := by
  constructor
  · intro h k
    rw [← sv.eq_iff, ← valuesOf_listing sk sv, ← valuesOf_listing sk sv, h]
  · intro h
    have hkeys : (keys m₁).Perm (keys m₂) := keys_perm fun k => by
      rw [← List.length_eq_zero_iff, ← List.length_eq_zero_iff, (h k).length_eq]
    unfold listing
    rw [sk.eq_of_perm hkeys]
    refine List.flatMap_congr fun k _ => ?_
    rw [sv.eq_of_perm (h k)]

end Listing

end Multimap
