import Mathlib.Data.List.Basic
import Mathlib.Data.List.Perm.Basic

/-! # A register with many writers

Some of the keys of a list concern a register and offer it a value.  It takes the value
offered until it holds a final one.  `perm_iff` says when what it holds in the end does not
depend on the order of the keys. -/

namespace Register

variable {κ α : Type} (final : α → Bool) (concerns : κ → Bool) (value : κ → α)

/-- The register after a key had its turn. -/
def write (held : α) (k : κ) : α := if concerns k && !final held then value k else held

/-- The values that can come out on top are the same. -/
def Uncontested (ks : List κ) : Prop :=
  ∀ k ∈ ks, ∀ k' ∈ ks, concerns k = true → concerns k' = true →
    (final (value k) = true ∧ final (value k') = true ∨
      ∀ k ∈ ks, concerns k = true → final (value k) = false) → value k = value k'

variable {final concerns value} {held : α} {ks ks' : List κ}

theorem foldl_write_final (h : final held = true) (ks : List κ) :
    ks.foldl (write final concerns value) held = held := by
  induction ks with
  | nil => rfl
  | cons k ks ih =>
    have hstep : write final concerns value held k = held := by simp [write, h]
    rw [List.foldl_cons, hstep, ih]

/-- What a register ends with: a final value offered, or, when there is none, a value
    offered, or, when there is none, what it held. -/
inductive Ends (final : α → Bool) (concerns : κ → Bool) (value : κ → α) (held : α) (ks : List κ) : α → Prop where
  | final (k : κ) (mem : k ∈ ks) (concern : concerns k = true) (fin : final (value k) = true) :
      Ends final concerns value held ks (value k)
  | last (k : κ) (mem : k ∈ ks) (concern : concerns k = true)
      (bare : ∀ k ∈ ks, concerns k = true → final (value k) = false) : Ends final concerns value held ks (value k)
  | untouched (none : ∀ k ∈ ks, concerns k = false) : Ends final concerns value held ks held

/-- A key that does not concern the register does not count. -/
theorem Ends.cons_skip {k : κ} {a : α} (hk : concerns k = false) (h : Ends final concerns value held ks a) :
    Ends final concerns value held (k :: ks) a := by
  cases h with
  | final k' hmem hconcern hfinal => exact .final k' (List.mem_cons_of_mem _ hmem) hconcern hfinal
  | last k' hmem hconcern hopen =>
    apply Ends.last k' (List.mem_cons_of_mem _ hmem) hconcern
    exact List.forall_mem_cons.mpr ⟨fun hconcern' => by simp [hk] at hconcern', hopen⟩
  | untouched hnone => exact .untouched (List.forall_mem_cons.mpr ⟨hk, hnone⟩)

/-- A value that is not final stays only if no later key has anything to say. -/
theorem Ends.cons_open {k : κ} {a : α} (hk : concerns k = true) (hfin : final (value k) = false)
    (h : Ends final concerns value (value k) ks a) : Ends final concerns value held (k :: ks) a := by
  cases h with
  | final k' hmem hconcern hfinal => exact .final k' (List.mem_cons_of_mem _ hmem) hconcern hfinal
  | last k' hmem hconcern hopen =>
    apply Ends.last k' (List.mem_cons_of_mem _ hmem) hconcern
    exact List.forall_mem_cons.mpr ⟨fun _ => hfin, hopen⟩
  | untouched hnone =>
    apply Ends.last k List.mem_cons_self hk
    exact List.forall_mem_cons.mpr ⟨fun _ => hfin, fun k' hk' hconcern => by simp [hnone k' hk'] at hconcern⟩

theorem foldl_write_ends (h : final held = false) (ks : List κ) :
    Ends final concerns value held ks (ks.foldl (write final concerns value) held) := by
  induction ks generalizing held with
  | nil => exact .untouched nofun
  | cons k ks ih =>
    rw [List.foldl_cons]
    cases hk : concerns k with
    | false =>
      have hstep : write final concerns value held k = held := by simp [write, hk]
      rw [hstep]
      exact (ih h).cons_skip hk
    | true =>
      have hstep : write final concerns value held k = value k := by simp [write, hk, h]
      rw [hstep]
      cases hfin : final (value k) with
      | true =>
        rw [foldl_write_final hfin]
        exact .final k List.mem_cons_self hk hfin
      | false => exact (ih hfin).cons_open hk hfin

theorem Ends.unique (h : Uncontested final concerns value ks) (hperm : ks'.Perm ks) {a b : α}
    (ha : Ends final concerns value held ks a) (hb : Ends final concerns value held ks' b) : a = b := by
  have hmem : ∀ {k}, k ∈ ks' → k ∈ ks := fun hk => hperm.mem_iff.mp hk
  have hmem' : ∀ {k}, k ∈ ks → k ∈ ks' := fun hk => hperm.mem_iff.mpr hk
  cases ha with
  | final k hk hconcern hfinal =>
    cases hb with
    | final k' hk' hconcern' hfinal' =>
      exact h k hk k' (hmem hk') hconcern hconcern' (.inl ⟨hfinal, hfinal'⟩)
    | last k' hk' hconcern' hopen => simp [hopen k (hmem' hk) hconcern] at hfinal
    | untouched hnone => simp [hnone k (hmem' hk)] at hconcern
  | last k hk hconcern hopen =>
    cases hb with
    | final k' hk' hconcern' hfinal' => simp [hopen k' (hmem hk') hconcern'] at hfinal'
    | last k' hk' hconcern' _ => exact h k hk k' (hmem hk') hconcern hconcern' (.inr hopen)
    | untouched hnone => simp [hnone k (hmem' hk)] at hconcern
  | untouched hnone =>
    cases hb with
    | final k' hk' hconcern' _ => simp [hnone k' (hmem hk')] at hconcern'
    | last k' hk' hconcern' _ => simp [hnone k' (hmem hk')] at hconcern'
    | untouched _ => rfl

/-- A key with a final value wins by coming first. -/
theorem wins_first [DecidableEq κ] (h : final held = false) {k : κ} (hk : k ∈ ks) (hconcern : concerns k = true)
    (hfinal : final (value k) = true) :
    ∃ ks' : List κ, ks'.Perm ks ∧ ks'.foldl (write final concerns value) held = value k := by
  have hstep : write final concerns value held k = value k := by simp [write, hconcern, h]
  exact ⟨k :: ks.erase k, (List.perm_cons_erase hk).symm, by rw [List.foldl_cons, hstep, foldl_write_final hfinal]⟩

/-- Where no value is final a key wins by coming last. -/
theorem wins_last [DecidableEq κ] (h : final held = false) {k : κ} (hk : k ∈ ks) (hconcern : concerns k = true)
    (hopen : ∀ k ∈ ks, concerns k = true → final (value k) = false) :
    ∃ ks' : List κ, ks'.Perm ks ∧ ks'.foldl (write final concerns value) held = value k := by
  have hbefore : final ((ks.erase k).foldl (write final concerns value) held) = false := by
    have hends : Ends final concerns value held (ks.erase k) _ := foldl_write_ends h (ks.erase k)
    generalize (ks.erase k).foldl (write final concerns value) held = a at hends
    cases hends with
    | final k' hk' hconcern' hfinal => exact hopen k' (List.mem_of_mem_erase hk') hconcern'
    | last k' hk' hconcern' _ => exact hopen k' (List.mem_of_mem_erase hk') hconcern'
    | untouched _ => exact h
  refine ⟨ks.erase k ++ [k], ?_, ?_⟩
  · exact (List.perm_append_singleton k _).trans (List.perm_cons_erase hk).symm
  · rw [List.foldl_append, List.foldl_cons, List.foldl_nil, write, hbefore, hconcern]
    rfl

/-- The order of the keys makes no difference exactly when the register is closed from the
    start or uncontested. -/
theorem perm_iff [DecidableEq κ] (held : α) (ks : List κ) :
    (∀ ks₁ ks₂ : List κ, ks₁.Perm ks → ks₂.Perm ks →
        ks₁.foldl (write final concerns value) held = ks₂.foldl (write final concerns value) held) ↔
      (final held = false → Uncontested final concerns value ks) := by
  constructor
  · intro hsame hopen k hk k' hk' hconcern hconcern' hrank
    have hwins : ∀ k ∈ ks, concerns k = true →
        (final (value k) = true ∨ ∀ k ∈ ks, concerns k = true → final (value k) = false) →
        ∃ ks' : List κ, ks'.Perm ks ∧ ks'.foldl (write final concerns value) held = value k := by
      intro k hk hconcern hrank
      cases hrank with
      | inl hfinal => exact wins_first hopen hk hconcern hfinal
      | inr hnone => exact wins_last hopen hk hconcern hnone
    obtain ⟨ks₁, hperm₁, h₁⟩ := hwins k hk hconcern (hrank.imp_left And.left)
    obtain ⟨ks₂, hperm₂, h₂⟩ := hwins k' hk' hconcern' (hrank.imp_left And.right)
    rw [← h₁, ← h₂]
    exact hsame ks₁ ks₂ hperm₁ hperm₂
  · intro huncontested ks₁ ks₂ hperm₁ hperm₂
    cases hheld : final held with
    | true => rw [foldl_write_final hheld, foldl_write_final hheld]
    | false =>
      have hends (ks' : List κ) : Ends final concerns value held ks' _ := foldl_write_ends hheld ks'
      have h₁ := (hends ks).unique (huncontested hheld) hperm₁ (hends ks₁)
      have h₂ := (hends ks).unique (huncontested hheld) hperm₂ (hends ks₂)
      rw [← h₁, h₂]

end Register
