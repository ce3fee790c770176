import Mathlib.Data.Finset.Card
import Mathlib.Data.Finset.Dedup
import Mathlib.Data.List.Nodup

/-! # Caches that forget the least recently used entry

A cache is any type with the operations of `Ops`.  `Ops.Laws` says what is assumed of them,
in terms of what a cache holds: its entries in the order of their last use, newest first, so
that what it forgets is always a tail of them.

`Holds k v S` says where an entry stands: only keys of `S` were used after it.  It is what
survives: as long as `S` is smaller than the cache, the entry cannot be among the forgotten
ones. -/

namespace Lru

variable {κ α C : Type}

structure Contents (κ α : Type) where
  size : Nat
  entries : List (κ × α)
  distinct : (entries.map Prod.fst).Nodup
  bounded : entries.length ≤ size

def Contents.empty (κ α : Type) (size : Nat) : Contents κ α := ⟨size, [], List.nodup_nil, Nat.zero_le _⟩

variable [DecidableEq κ]

/-! ## Entries -/

/-- The entries after a use of `k`, which has the value `v` from then on. -/
def front (k : κ) (v : α) (entries : List (κ × α)) : List (κ × α) :=
  (k, v) :: entries.filter (·.1 ≠ k)

theorem map_fst_front (k : κ) (v : α) (entries : List (κ × α)) :
    (front k v entries).map Prod.fst = k :: (entries.map Prod.fst).filter (· ≠ k) := by
  simp [front, List.filter_map, Function.comp_def]

theorem nodup_front (k : κ) (v : α) {entries : List (κ × α)} (h : (entries.map Prod.fst).Nodup) :
    ((front k v entries).map Prod.fst).Nodup := by
  rw [map_fst_front, List.nodup_cons]
  exact ⟨by simp, h.filter _⟩

omit [DecidableEq κ] in
theorem nodup_take (n : Nat) {entries : List (κ × α)} (h : (entries.map Prod.fst).Nodup) :
    ((entries.take n).map Prod.fst).Nodup :=
  h.sublist ((List.take_sublist n entries).map _)

theorem length_front_le (k : κ) (v : α) (entries : List (κ × α)) :
    (front k v entries).length ≤ entries.length + 1 :=
  Nat.succ_le_succ (List.length_filter_le _ _)

theorem length_front_le_of_mem {k : κ} {v w : α} {entries : List (κ × α)} (h : (k, w) ∈ entries) :
    (front k v entries).length ≤ entries.length := by
  have hlt : (entries.filter (·.1 ≠ k)).length < entries.length :=
    List.length_filter_lt_length_iff_exists.mpr ⟨(k, w), h, by simp⟩
  exact hlt

theorem mem_of_mem_front {k : κ} {v : α} {e : κ × α} {entries : List (κ × α)}
    (h : e ∈ front k v entries) : e = (k, v) ∨ e ∈ entries := by
  rcases List.mem_cons.mp h with h | h
  · exact .inl h
  · exact .inr (List.mem_of_mem_filter h)

/-! ## What can happen to it -/

namespace Contents

variable (c : Contents κ α)

/-- The value of a key, which does not count as a use. -/
def peek (k : κ) : Option α := (c.entries.find? (·.1 = k)).map Prod.snd

theorem mem_of_peek {k : κ} {v : α} (h : c.peek k = some v) : (k, v) ∈ c.entries := by
  obtain ⟨e, he, rfl⟩ := Option.map_eq_some_iff.mp h
  have hk : e.1 = k := by simpa using List.find?_some he
  subst hk
  exact List.mem_of_find?_eq_some he

theorem not_mem_of_peek {k : κ} (h : c.peek k = none) (v : α) : (k, v) ∉ c.entries := by
  intro hmem
  have hnone := List.find?_eq_none.mp (Option.map_eq_none_iff.mp h) _ hmem
  simp at hnone

theorem peek_of_mem {k : κ} {v : α} (h : (k, v) ∈ c.entries) : c.peek k = some v := by
  cases hpeek : c.peek k with
  | none => exact absurd h (c.not_mem_of_peek hpeek v)
  | some w =>
    have heq := List.inj_on_of_nodup_map c.distinct (c.mem_of_peek hpeek) h rfl
    rw [(Prod.mk.inj heq).2]

/-- A use of a key that is cached with the value. -/
def touch (k : κ) (v : α) (h : c.peek k = some v) : Contents κ α where
  size := c.size
  entries := front k v c.entries
  distinct := nodup_front k v c.distinct
  bounded := (length_front_le_of_mem (c.mem_of_peek h)).trans c.bounded

/-- Sets the value of a key, which forgets `excess` entries. -/
def put (k : κ) (v : α) : Contents κ α where
  size := c.size
  entries := (front k v c.entries).take c.size
  distinct := nodup_take _ (nodup_front k v c.distinct)
  bounded := List.length_take_le _ _

def excess (k : κ) (v : α) : Nat := (front k v c.entries).length - c.size

/-- Changes the size, which forgets what no longer fits. -/
def resize (n : Nat) : Contents κ α where
  size := n
  entries := c.entries.take n
  distinct := nodup_take _ c.distinct
  bounded := List.length_take_le _ _

/-! ## What is left of it -/

variable {c}

theorem mem_of_mem_touch {k : κ} {v : α} {h : c.peek k = some v} {e : κ × α}
    (he : e ∈ (c.touch k v h).entries) : e ∈ c.entries := by
  rcases mem_of_mem_front he with rfl | he
  · exact c.mem_of_peek h
  · exact he

theorem mem_of_mem_put {k : κ} {v : α} {e : κ × α} (he : e ∈ (c.put k v).entries) :
    e = (k, v) ∨ e ∈ c.entries :=
  mem_of_mem_front (List.mem_of_mem_take he)

omit [DecidableEq κ] in
theorem mem_of_mem_resize {n : Nat} {e : κ × α} (he : e ∈ (c.resize n).entries) :
    e ∈ c.entries :=
  List.mem_of_mem_take he

theorem length_touch {k : κ} {v : α} (h : c.peek k = some v) :
    (c.touch k v h).entries.length = c.entries.length := by
  have hperm : ((front k v c.entries).map Prod.fst).Perm (c.entries.map Prod.fst) := by
    refine (List.perm_ext_iff_of_nodup (nodup_front k v c.distinct) c.distinct).mpr ?_
    intro j
    have hk : k ∈ c.entries.map Prod.fst := List.mem_map_of_mem (c.mem_of_peek h)
    rw [map_fst_front, List.mem_cons, List.mem_filter]
    by_cases hj : j = k
    · subst hj
      simp only [true_or, true_iff]
      exact hk
    · simp [hj]
  have hlength := hperm.length_eq
  rw [List.length_map, List.length_map] at hlength
  exact hlength

/-- Setting a value takes at most one more place. -/
theorem length_put_le (k : κ) (v : α) :
    (c.put k v).entries.length + c.excess k v ≤ c.entries.length + 1 := by
  have hfront := length_front_le k v c.entries
  simp only [put, excess, List.length_take]
  omega

omit [DecidableEq κ] in
theorem length_resize (n : Nat) :
    (c.resize n).entries.length + (c.entries.length - n) = c.entries.length := by
  simp only [resize, List.length_take]
  omega

end Contents

/-! ## What is not forgotten -/

/-- `k` has the value `v`, and only keys of `S` were used after it. -/
def Holds (k : κ) (v : α) (S : Finset κ) (entries : List (κ × α)) : Prop :=
  ∃ newer older, entries = newer ++ (k, v) :: older ∧ ∀ e ∈ newer, e.1 ∈ S

variable {k : κ} {v : α} {S : Finset κ} {entries : List (κ × α)}

omit [DecidableEq κ] in
theorem Holds.mem (h : Holds k v S entries) : (k, v) ∈ entries := by
  obtain ⟨newer, older, rfl, -⟩ := h
  simp

theorem holds_front : Holds k v S (front k v entries) :=
  ⟨[], entries.filter (·.1 ≠ k), rfl, by simp⟩

/-- The use of a key of `S` moves the entry back by one place at most. -/
theorem Holds.front {j : κ} {w : α} (h : Holds k v S entries) (hj : j ∈ S) (hne : j ≠ k) :
    Holds k v S (front j w entries) := by
  obtain ⟨newer, older, rfl, hnewer⟩ := h
  refine ⟨(j, w) :: newer.filter (·.1 ≠ j), older.filter (·.1 ≠ j), ?_, ?_⟩
  · simp [Lru.front, List.filter_append, Ne.symm hne]
  · intro e he
    rcases List.mem_cons.mp he with rfl | he
    · exact hj
    · exact hnewer e (List.mem_of_mem_filter he)

/-- The keys used after an entry are distinct ones of `S`, so fewer than `n` places are
    taken by them when `S` has fewer than `n` keys. -/
theorem Holds.take {n : Nat} (h : Holds k v S entries) (hdistinct : (entries.map Prod.fst).Nodup)
    (hcard : S.card < n) : Holds k v S (entries.take n) := by
  obtain ⟨newer, older, rfl, hnewer⟩ := h
  have hnodup : (newer.map Prod.fst).Nodup := by
    rw [List.map_append] at hdistinct
    exact hdistinct.of_append_left
  have hsub : (newer.map Prod.fst).toFinset ⊆ S := by
    intro j hj
    obtain ⟨e, he, rfl⟩ := List.mem_map.mp (List.mem_toFinset.mp hj)
    exact hnewer e he
  have hlength : newer.length < n := by
    have hle := Finset.card_le_card hsub
    rw [List.toFinset_card_of_nodup hnodup, List.length_map] at hle
    omega
  obtain ⟨m, hm⟩ := Nat.exists_eq_add_of_lt hlength
  refine ⟨newer, older.take m, ?_, hnewer⟩
  have hn : n - newer.length = m + 1 := by omega
  rw [List.take_append, List.take_of_length_le hlength.le, hn, List.take_succ_cons]

/-- `k` is not cached, or held as by `Holds`. -/
def Keeps (k : κ) (S : Finset κ) (entries : List (κ × α)) : Option α → Prop
  | none => ∀ v, (k, v) ∉ entries
  | some v => Holds k v S entries

namespace Contents

variable {c : Contents κ α} {x : Option α} {j : κ} {w : α}

/-- What is known of a key is what looking it up gives. -/
theorem peek_of_keeps (h : Keeps k S c.entries x) : c.peek k = x := by
  cases x with
  | none =>
    cases hpeek : c.peek k with
    | none => rfl
    | some v => exact absurd (c.mem_of_peek hpeek) (h v)
  | some v => exact c.peek_of_mem h.mem

theorem keeps_touch (h : Keeps k S c.entries x) (hpeek : c.peek j = some w)
    (hj : j = k ∨ j ∈ S) : Keeps k S (c.touch j w hpeek).entries x := by
  cases x with
  | none =>
    intro v hv
    exact h v (mem_of_mem_touch hv)
  | some v =>
    by_cases hjk : j = k
    · subst hjk
      have hw : c.peek j = some v := peek_of_keeps h
      obtain rfl : v = w := Option.some.inj (hw.symm.trans hpeek)
      exact holds_front
    · exact Holds.front h (hj.resolve_left hjk) hjk

theorem keeps_put (h : Keeps k S c.entries x) (hcard : S.card < c.size) (hj : j ∈ S)
    (hne : j ≠ k) : Keeps k S (c.put j w).entries x := by
  cases x with
  | none =>
    intro v hv
    rcases mem_of_mem_put hv with heq | hv
    · exact hne (Prod.mk.inj heq).1.symm
    · exact h v hv
  | some v => exact (Holds.front h hj hne).take (nodup_front j w c.distinct) hcard

theorem keeps_put_self (hcard : S.card < c.size) : Keeps k S (c.put k v).entries (some v) :=
  holds_front.take (nodup_front k v c.distinct) hcard

theorem keeps_resize {n : Nat} (h : Keeps k S c.entries x) (hcard : S.card < n) :
    Keeps k S (c.resize n).entries x := by
  cases x with
  | none =>
    intro v hv
    exact h v (mem_of_mem_resize hv)
  | some v => exact Holds.take h c.distinct hcard

end Contents

/-! ## Caches -/

/-- The operations of a cache; a number is how many entries an operation forgets. -/
structure Ops (κ α C : Type) where
  new : Nat → C
  len : C → Nat
  get : C → κ → C × Option α
  add : C → κ → α → C × Nat
  peekOrAdd : C → κ → α → C × Option α × Nat
  resize : C → Nat → C × Nat

/-- What is assumed of the operations, where `view c` is what the cache `c` holds. -/
structure Ops.Laws (ops : Ops κ α C) (view : C → Contents κ α) : Prop where
  new : ∀ n, view (ops.new n) = .empty κ α n
  len : ∀ c, ops.len c = (view c).entries.length
  get_hit : ∀ c k v (h : (view c).peek k = some v),
    ∃ c', ops.get c k = (c', some v) ∧ view c' = (view c).touch k v h
  get_miss : ∀ c k, (view c).peek k = none → ∃ c', ops.get c k = (c', none) ∧ view c' = view c
  add : ∀ c k v, ∃ c', ops.add c k v = (c', (view c).excess k v) ∧ view c' = (view c).put k v
  -- to look at what is there is no use of it
  peekOrAdd_hit : ∀ c k v w, (view c).peek k = some w →
    ∃ c', ops.peekOrAdd c k v = (c', some w, 0) ∧ view c' = view c
  peekOrAdd_miss : ∀ c k v, (view c).peek k = none →
    ∃ c', ops.peekOrAdd c k v = (c', none, (view c).excess k v) ∧ view c' = (view c).put k v
  resize : ∀ c n, ∃ c', ops.resize c n = (c', (view c).entries.length - n) ∧ view c' = (view c).resize n

def plain (κ α : Type) [DecidableEq κ] : Ops κ α (Contents κ α) where
  new := .empty κ α
  len c := c.entries.length
  get c k :=
    match h : c.peek k with
    | some v => (c.touch k v h, some v)
    | none => (c, none)
  add c k v := (c.put k v, c.excess k v)
  peekOrAdd c k v :=
    match c.peek k with
    | some w => (c, some w, 0)
    | none => (c.put k v, none, c.excess k v)
  resize c n := (c.resize n, c.entries.length - n)

theorem plain_laws : (plain κ α).Laws id where
  new _ := rfl
  len _ := rfl
  get_hit c k v h := by
    refine ⟨c.touch k v h, ?_, rfl⟩
    simp only [plain]
    split
    case h_1 w hw =>
      obtain rfl : w = v := Option.some.inj (hw.symm.trans h)
      rfl
    case h_2 hw => exact absurd (hw.symm.trans h) (by simp)
  get_miss c k h := by
    refine ⟨c, ?_, rfl⟩
    simp only [plain]
    split
    case h_1 w hw => exact absurd (h.symm.trans hw) (by simp)
    case h_2 => rfl
  add _ _ _ := ⟨_, rfl, rfl⟩
  peekOrAdd_hit c k v w h := by
    simp only [id] at h
    exact ⟨c, by simp only [plain, h], rfl⟩
  peekOrAdd_miss c k v h := by
    simp only [id] at h
    exact ⟨c.put k v, by simp only [plain, h, id], rfl⟩
  resize _ _ := ⟨_, rfl, rfl⟩

end Lru
