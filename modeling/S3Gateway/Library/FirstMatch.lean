import Mathlib.Data.List.Basic

/-! # First-match scans

A rule list is scanned from the front, a deny rule ends the scan, and the first
allow rule is remembered.  The same question can be asked of a list of patterns
flattened out of the rules beforehand, with a parallel list naming the rule each
pattern came from.  Everything here is over arbitrary rules and patterns. -/

namespace FirstMatch

variable {ρ π : Type*}

/-! ## Scanning rules -/

/-- What a scan ends with: the first deny, else the first allow, else nothing.
    The numbers are positions in the rule list. -/
inductive Outcome where
  | denied (i : Nat)
  | allowed (i : Nat)
  | unmatched
deriving DecidableEq, Repr

/-- The early-exit scan.  `i` is the position of the head of the list and
    `seen` what the rules before it settled. -/
def scan (deny allow : ρ → Bool) : Nat → List ρ → Outcome → Outcome
  | _, [], seen => seen
  | i, r :: rs, seen =>
    if deny r then .denied i
    else if allow r && seen == .unmatched then scan deny allow (i + 1) rs (.allowed i)
    else scan deny allow (i + 1) rs seen

/-- The outcome of a scan that did not meet a deny, continued over `rs`. -/
def settle (allow : ρ → Bool) (i : Nat) (rs : List ρ) : Outcome → Outcome
  | .unmatched =>
    match rs.findIdx? allow with
    | some j => .allowed (i + j)
    | none => .unmatched
  | seen => seen

theorem scan_eq (deny allow : ρ → Bool) (i : Nat) (rs : List ρ) (seen : Outcome) :
    scan deny allow i rs seen =
      match rs.findIdx? deny with
      | some j => .denied (i + j)
      | none => settle allow i rs seen := by
  induction rs generalizing i seen with
  | nil => cases seen <;> rfl
  | cons r rs ih =>
    rw [scan, List.findIdx?_cons]
    by_cases hd : deny r = true
    · simp [hd]
    · simp only [hd, Bool.false_eq_true, if_false]
      have shift : ∀ j, i + 1 + j = i + (j + 1) := fun j => by omega
      cases seen with
      | denied k => simp [ih, settle]; cases rs.findIdx? deny <;> simp [shift]
      | allowed k => simp [ih, settle]; cases rs.findIdx? deny <;> simp [shift]
      | unmatched =>
        by_cases ha : allow r = true
        · simp [ih, settle, ha, List.findIdx?_cons]; cases rs.findIdx? deny <;> simp [shift]
        · simp [ih, settle, ha, List.findIdx?_cons]
          cases rs.findIdx? deny <;> cases rs.findIdx? allow <;> simp [shift]

theorem scan_denied_iff (deny allow : ρ → Bool) (rs : List ρ) :
    (∃ i, scan deny allow 0 rs .unmatched = .denied i) ↔ ∃ r ∈ rs, deny r = true := by
  rw [scan_eq]
  cases hd : rs.findIdx? deny with
  | none =>
    have none_denies := List.findIdx?_eq_none_iff.mp hd
    constructor
    · rintro ⟨i, h⟩
      simp only [settle] at h
      split at h <;> cases h
    · rintro ⟨r, hr, hdr⟩
      rw [none_denies r hr] at hdr
      cases hdr
  | some j =>
    obtain ⟨hj, hdj, -⟩ := List.findIdx?_eq_some_iff_getElem.mp hd
    exact ⟨fun _ => ⟨rs[j], List.getElem_mem hj, hdj⟩, fun _ => ⟨0 + j, rfl⟩⟩

theorem scan_allowed_iff (deny allow : ρ → Bool) (rs : List ρ) :
    (∃ i, scan deny allow 0 rs .unmatched = .allowed i) ↔
      (∃ r ∈ rs, allow r = true) ∧ ∀ r ∈ rs, deny r = false := by
  rw [scan_eq]
  cases hd : rs.findIdx? deny with
  | some j =>
    obtain ⟨hj, hdj, -⟩ := List.findIdx?_eq_some_iff_getElem.mp hd
    constructor
    · rintro ⟨i, h⟩; cases h
    · rintro ⟨-, hall⟩
      rw [hall _ (List.getElem_mem hj)] at hdj
      cases hdj
  | none =>
    have none_denies := List.findIdx?_eq_none_iff.mp hd
    simp only [settle]
    cases ha : rs.findIdx? allow with
    | none =>
      have none_allows := List.findIdx?_eq_none_iff.mp ha
      constructor
      · rintro ⟨i, h⟩; cases h
      · rintro ⟨⟨r, hr, har⟩, -⟩
        rw [none_allows r hr] at har
        cases har
    | some j =>
      obtain ⟨hj, haj, -⟩ := List.findIdx?_eq_some_iff_getElem.mp ha
      exact ⟨fun _ => ⟨⟨rs[j], List.getElem_mem hj, haj⟩, none_denies⟩, fun _ => ⟨0 + j, rfl⟩⟩

/-! ## Patterns flattened out of the rules -/

/-- The patterns of the rules that `keep` holds of, in rule order. -/
def patterns (keep : ρ → Bool) (pats : ρ → List π) : List ρ → List π
  | [] => []
  | r :: rs => if keep r then pats r ++ patterns keep pats rs else patterns keep pats rs

/-- The position of the rule each of those patterns came from. -/
def sources (keep : ρ → Bool) (pats : ρ → List π) : Nat → List ρ → List Nat
  | _, [] => []
  | i, r :: rs =>
    if keep r then List.replicate (pats r).length i ++ sources keep pats (i + 1) rs
    else sources keep pats (i + 1) rs

theorem sources_length (keep : ρ → Bool) (pats : ρ → List π) (i : Nat) (rs : List ρ) :
    (sources keep pats i rs).length = (patterns keep pats rs).length := by
  induction rs generalizing i with
  | nil => rfl
  | cons r rs ih =>
    simp only [sources, patterns]
    split <;> simp [ih]

theorem mem_patterns {keep : ρ → Bool} {pats : ρ → List π} {rs : List ρ} {p : π} :
    p ∈ patterns keep pats rs ↔ ∃ r ∈ rs, keep r = true ∧ p ∈ pats r := by
  induction rs with
  | nil => simp [patterns]
  | cons r rs ih =>
    simp only [patterns]
    split <;> rename_i hk <;> simp [ih, hk]

/-- Matching against the flattened patterns finds the first kept rule with a
    matching pattern: the source of the first hit is that rule's position. -/
theorem source_of_first_hit (keep : ρ → Bool) (pats : ρ → List π) (hit : π → Bool)
    (i : Nat) (rs : List ρ) :
    ((patterns keep pats rs).findIdx? hit).bind ((sources keep pats i rs)[·]?) =
      (rs.findIdx? fun r => keep r && (pats r).any hit).map (i + ·) := by
  induction rs generalizing i with
  | nil => rfl
  | cons r rs ih =>
    simp only [patterns, sources, List.findIdx?_cons]
    by_cases hk : keep r = true
    · simp only [hk, if_true, Bool.true_and, List.findIdx?_append]
      cases hp : (pats r).findIdx? hit with
      | some j =>
        obtain ⟨hj, hhit, -⟩ := List.findIdx?_eq_some_iff_getElem.mp hp
        have hany : (pats r).any hit = true :=
          List.any_eq_true.mpr ⟨(pats r)[j], List.getElem_mem hj, hhit⟩
        simp [hany, List.getElem?_append, hj]
      | none =>
        have hany : (pats r).any hit = false := by
          rw [List.any_eq_false]
          exact fun p hpr => by simpa using List.findIdx?_eq_none_iff.mp hp p hpr
        simp only [hany, Bool.false_eq_true, if_false, Option.none_or]
        -- the first hit, if any, lies behind the patterns of `r`, which shift its index
        have ih' := ih (i + 1)
        cases hq : (patterns keep pats rs).findIdx? hit with
        | none =>
          simp only [hq, Option.bind_none, Option.map_none] at ih' ⊢
          cases hf : rs.findIdx? fun r => keep r && (pats r).any hit with
          | none => rfl
          | some k => rw [hf] at ih'; cases ih'
        | some k =>
          simp only [hq, Option.map_some, Option.bind_some] at ih' ⊢
          rw [List.getElem?_append_right (by simp)]
          simp only [List.length_replicate, Nat.add_sub_cancel, ih', Option.map_map]
          congr 1
          funext j
          simp only [Function.comp]
          omega
    · simp only [hk, Bool.false_eq_true, if_false, Bool.false_and]
      rw [ih (i + 1), Option.map_map]
      congr 1
      funext j
      simp only [Function.comp]
      omega

/-! ## Asking only the first match -/

section First

variable {p q : ρ → Bool} {rs : List ρ}

/-- The first rule that `p` holds of fails `q`, and a later one satisfies both. -/
def Shadowed (p q : ρ → Bool) (rs : List ρ) : Prop :=
  ∃ front r back, rs = front ++ r :: back ∧ (∀ x ∈ front, p x = false) ∧ p r = true ∧ q r = false ∧
    ∃ x ∈ back, p x = true ∧ q x = true

/-- Asking only the first match about `q` finds a rule that satisfies both exactly if none is shadowed. -/
theorem any_find?_iff_exists_iff :
    ((rs.find? p).any q = true ↔ ∃ r ∈ rs, p r = true ∧ q r = true) ↔ ¬Shadowed p q rs := by
  cases hfind : rs.find? p with
  | none =>
    have hnone := List.find?_eq_none.mp hfind
    have hunshadowed : ¬Shadowed p q rs := by
      rintro ⟨front, r, back, rfl, -, hp, -⟩
      exact hnone r (List.mem_append_right _ List.mem_cons_self) hp
    have hnot : ¬∃ r ∈ rs, p r = true ∧ q r = true := fun ⟨r, hr, hp, _⟩ => hnone r hr hp
    simp [hunshadowed, hnot]
  | some a =>
    obtain ⟨hp, front, back, hrs, hfront⟩ := List.find?_eq_some_iff_append.mp hfind
    cases hq : q a with
    | true =>
      have hexists : ∃ r ∈ rs, p r = true ∧ q r = true :=
        ⟨a, hrs ▸ List.mem_append_right _ List.mem_cons_self, hp, hq⟩
      -- a shadowing rule would itself be the first match
      have hunshadowed : ¬Shadowed p q rs := by
        rintro ⟨front', r, back', hrs', hfront', hp', hq', -⟩
        have hfirst : rs.find? p = some r :=
          List.find?_eq_some_iff_append.mpr ⟨hp', front', back', hrs', fun x hx => by simp [hfront' x hx]⟩
        rw [hfind] at hfirst
        cases hfirst
        rw [hq] at hq'
        cases hq'
      simp only [Option.any_some, hq, true_iff, hunshadowed, not_false_eq_true, iff_true]
      exact hexists
    | false =>
      have hshadowed : Shadowed p q rs ↔ ∃ r ∈ rs, p r = true ∧ q r = true := by
        constructor
        · rintro ⟨front', r, back', rfl, -, -, -, x, hx, hboth⟩
          exact ⟨x, List.mem_append_right _ (List.mem_cons_of_mem _ hx), hboth⟩
        · rintro ⟨x, hx, hpx, hqx⟩
          refine ⟨front, a, back, hrs, fun y hy => by simpa using hfront y hy, hp, hq, x, ?_, hpx, hqx⟩
          rw [hrs] at hx
          rcases List.mem_append.mp hx with hin | hin
          · have hfalse := hfront x hin
            rw [hpx] at hfalse
            cases hfalse
          · refine (List.mem_cons.mp hin).resolve_left ?_
            rintro rfl
            rw [hq] at hqx
            cases hqx
      simp [hq, hshadowed]

/-- The answer is the same in every order exactly if the matching rules agree on it. -/
theorem any_find?_perm_iff :
    (∀ rs' : List ρ, rs'.Perm rs → (rs'.find? p).any q = (rs.find? p).any q) ↔
      ∀ a ∈ rs, ∀ b ∈ rs, p a = true → p b = true → q a = q b := by
  constructor
  · intro h a ha b hb hpa hpb
    -- each of the two can be put first
    have hfirst : ∀ x ∈ rs, p x = true → q x = (rs.find? p).any q := by
      intro x hx hpx
      obtain ⟨front, back, rfl⟩ := List.append_of_mem hx
      rw [← h (x :: (front ++ back)) List.perm_middle.symm, List.find?_cons_of_pos hpx]
      rfl
    rw [hfirst a ha hpa, hfirst b hb hpb]
  · intro h rs' hperm
    cases hfind : rs.find? p with
    | none =>
      have hnone := List.find?_eq_none.mp hfind
      rw [List.find?_eq_none.mpr fun x hx => hnone x (hperm.mem_iff.mp hx)]
    | some a =>
      obtain ⟨x, hx⟩ : ∃ x, rs'.find? p = some x := by
        rw [← Option.isSome_iff_exists, List.find?_isSome]
        exact ⟨a, hperm.mem_iff.mpr (List.mem_of_find?_eq_some hfind), List.find?_some hfind⟩
      rw [hx]
      exact h x (hperm.mem_iff.mp (List.mem_of_find?_eq_some hx)) a (List.mem_of_find?_eq_some hfind)
        (List.find?_some hx) (List.find?_some hfind)

end First

end FirstMatch
