import Mathlib.Data.List.Lex
import Mathlib.Data.List.Sort
import S3Gateway.Go.Bytes
import S3Gateway.Library.Multimap

/-! # Sorting strings

Go compares strings byte by byte; `sort.Strings` is modelled by insertion sort,
which yields the same list as any other sort of a total order. -/

namespace Go

/-- `a <= b` on Go strings. -/
def bytesLe (a b : Bytes) : Prop := a.map UInt8.toNat ≤ b.map UInt8.toNat

instance : DecidableRel bytesLe := fun a b => inferInstanceAs (Decidable (a.map _ ≤ b.map _))

instance : Std.Total bytesLe := ⟨fun a b => le_total (a.map UInt8.toNat) (b.map UInt8.toNat)⟩

instance : IsTrans Bytes bytesLe := ⟨fun _ _ _ h₁ h₂ => le_trans h₁ h₂⟩

theorem bytesLe_antisymm {a b : Bytes} (hab : bytesLe a b) (hba : bytesLe b a) : a = b := by
  have hmap : a.map UInt8.toNat = b.map UInt8.toNat := le_antisymm hab hba
  exact List.map_injective_iff.mpr (fun _ _ h => UInt8.toNat_inj.mp h) hmap

theorem bytesLe_nil {a : Bytes} (h : bytesLe a []) : a = [] := by
  cases a with
  | nil => rfl
  | cons b rest => exact absurd h (by simp [bytesLe])

/-- `sort.Strings`. -/
def sortStrings (l : List Bytes) : List Bytes := l.insertionSort bytesLe

theorem sortStrings_perm (l : List Bytes) : (sortStrings l).Perm l := List.perm_insertionSort _ l

theorem sortStrings_pairwise (l : List Bytes) : (sortStrings l).Pairwise bytesLe :=
  List.pairwise_insertionSort _ l

@[simp] theorem mem_sortStrings {x : Bytes} {l : List Bytes} : x ∈ sortStrings l ↔ x ∈ l :=
  (sortStrings_perm l).mem_iff

theorem sortStrings_eq_of_perm {l₁ l₂ : List Bytes} (h : l₁.Perm l₂) :
    sortStrings l₁ = sortStrings l₂ := by
  refine List.Perm.eq_of_pairwise (fun a b _ _ hab hba => bytesLe_antisymm hab hba)
    (sortStrings_pairwise l₁) (sortStrings_pairwise l₂) ?_
  exact (sortStrings_perm l₁).trans (h.trans (sortStrings_perm l₂).symm)

def stringSorting : Multimap.Sorting Bytes where
  sort := sortStrings
  perm := sortStrings_perm
  eq_of_perm := sortStrings_eq_of_perm

/-! ## Binary search -/

/-- The loop of `sort.Search`. -/
def searchLoop (f : Nat → Bool) (i j : Nat) : Nat :=
  if i < j then
    let h := (i + j) / 2
    if f h then searchLoop f i h else searchLoop f (h + 1) j
  else i
termination_by j - i

def search (n : Nat) (f : Nat → Bool) : Nat := searchLoop f 0 n

/-- Below `i` the test is known to fail and from `j` on to hold; the loop closes the gap. -/
theorem searchLoop_spec {f : Nat → Bool} {n i j : Nat} (hmono : ∀ a b, a ≤ b → b < n → f a = true → f b = true)
    (hij : i ≤ j) (hjn : j ≤ n) (hlow : ∀ k < i, f k = false) (hhigh : ∀ k, j ≤ k → k < n → f k = true) :
    searchLoop f i j ≤ n ∧ (∀ k < searchLoop f i j, f k = false) ∧
      ∀ k, searchLoop f i j ≤ k → k < n → f k = true := by
  fun_induction searchLoop f i j with
  | case1 i j hlt h hf ih =>
    exact ih (by omega) (by omega) hlow fun k hk hkn => hmono h k hk hkn hf
  | case2 i j hlt h hf ih =>
    refine ih (by omega) hjn (fun k hk => ?_) hhigh
    by_contra htrue
    exact hf (hmono k h (by omega) (by omega) (by simpa using htrue))
  | case3 i j hlt =>
    have heq : i = j := by omega
    exact ⟨by omega, hlow, heq ▸ hhigh⟩

/-- On a list that starts with the entries the test fails on, searching skips exactly those. -/
theorem drop_search {α : Type} {p : α → Bool} {l : List α} (h : l.Pairwise fun a b => p a = true → p b = true) :
    l.drop (search l.length fun i => l[i]?.any p) = l.dropWhile (!p ·) := by
  -- what the search asks is monotone, so it finds the first entry that answers yes
  have hmono : ∀ a b, a ≤ b → b < l.length → l[a]?.any p = true → l[b]?.any p = true := by
    intro a b hab hb ha
    have ha' : a < l.length := by omega
    rw [List.getElem?_eq_getElem ha', Option.any_some] at ha
    rw [List.getElem?_eq_getElem hb, Option.any_some]
    rcases Nat.eq_or_lt_of_le hab with rfl | hlt
    · exact ha
    · exact List.pairwise_iff_getElem.mp h a b ha' hb hlt ha
  obtain ⟨hle, hlow, hhigh⟩ := searchLoop_spec hmono (Nat.zero_le _) le_rfl (fun k hk => absurd hk (Nat.not_lt_zero k))
    fun k hk hkn => absurd hkn (by omega)
  generalize hs : searchLoop (fun i => l[i]?.any p) 0 l.length = s at hle hlow hhigh
  rw [search, hs]
  -- before that every entry answers no, which is what `dropWhile` drops
  have htake : ∀ x ∈ l.take s, (!p x) = true := by
    intro x hx
    obtain ⟨k, hk, rfl⟩ := List.mem_take_iff_getElem.mp hx
    have hfail := hlow k (by omega)
    rw [List.getElem?_eq_getElem (by omega), Option.any_some] at hfail
    rw [hfail]
    rfl
  conv_rhs => rw [← List.take_append_drop s l, List.dropWhile_append_of_pos htake]
  cases hdrop : l.drop s with
  | nil => rfl
  | cons x rest =>
    have hs' : s < l.length := by
      by_contra hge
      rw [List.drop_eq_nil_of_le (by omega)] at hdrop
      cases hdrop
    have hx : l[s]? = some x := by
      rw [← List.head?_drop, hdrop]
      rfl
    have hhit := hhigh s le_rfl hs'
    rw [hx, Option.any_some] at hhit
    rw [List.dropWhile_cons_of_neg (by simp [hhit])]

end Go
