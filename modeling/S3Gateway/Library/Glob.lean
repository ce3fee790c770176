import Mathlib.Data.List.Forall2
import Mathlib.Data.List.Infix
import Mathlib.Tactic.Linarith

/-! # Patterns with gaps

A pattern is a list of symbols.  Some of them are gaps, which stand for any run of letters;
the others stand for one letter.  `loop` is the usual matcher: it walks along both lists,
remembers the last gap it entered and where, and takes one more letter into that gap when it
gets stuck.  Earlier gaps are forgotten.

A gap symbol may also stand for a letter by itself, and the loop then tries that first and
does not come back to it.  What it computes is therefore `Reads`, where such a symbol
standing at such a letter is read as the letter; this is the language of the pattern as long
as no gap symbol stands for a letter of the word. -/

namespace Glob

variable {π α : Type} (single : π → α → Bool) (gap : π → Bool)

inductive Matches : List π → List α → Prop
  | nil : Matches [] []
  | one {q : π} {v : α} {ps : List π} {vs : List α} :
      gap q = false → single q v = true → Matches ps vs → Matches (q :: ps) (v :: vs)
  | run {q : π} {ps : List π} {vs ws : List α} :
      gap q = true → ws <:+ vs → Matches ps ws → Matches (q :: ps) vs

/-- The language when a symbol that stands for the letter it meets is read as that letter. -/
inductive Reads : List π → List α → Prop
  | nil : Reads [] []
  | one {q : π} {v : α} {ps : List π} {vs : List α} :
      single q v = true → Reads ps vs → Reads (q :: ps) (v :: vs)
  | run {q : π} {ps : List π} {vs ws : List α} :
      gap q = true → (∀ v ∈ vs.head?, single q v = false) → ws <:+ vs → Reads ps ws →
      Reads (q :: ps) vs

/-- One more letter goes into the last gap: `back` is what follows that gap and the letters
    from where it was last taken to end. -/
def retry (next : List π → List α → Option (List π × List α) → Bool) : Option (List π × List α) → Bool
  | some (ps, _ :: ws) => next ps ws (some (ps, ws))
  | _ => false

/-- The matcher; the fuel bounds the number of turns. -/
def loop : Nat → List π → List α → Option (List π × List α) → Bool
  | 0, _, _, _ => false
  | _ + 1, pat, [], _ => pat.all gap
  | fuel + 1, [], _ :: _, back => retry (loop fuel) back
  | fuel + 1, q :: ps, v :: vs, back =>
    if single q v then loop fuel ps vs back
    else if gap q then loop fuel ps (v :: vs) (some (ps, v :: vs))
    else retry (loop fuel) back

variable {single gap}

/-! ## The two languages -/

section Languages

variable {q : π} {v : α} {ps pat : List π} {vs ws val rest : List α}

theorem matches_of_reads (h : Reads single gap pat val) : Matches single gap pat val := by
  induction h with
  | nil => exact .nil
  | @one q v ps vs hone _ ih =>
    cases hgap : gap q with
    | false => exact .one hgap hone ih
    | true => exact .run hgap (List.suffix_cons v vs) ih
  | run hgap _ hsuffix _ ih => exact .run hgap hsuffix ih

/-- Without a letter that a gap symbol stands for, the two languages are one. -/
theorem reads_of_matches (hval : ∀ q, gap q = true → ∀ v ∈ val, single q v = false)
    (h : Matches single gap pat val) : Reads single gap pat val := by
  induction h with
  | nil => exact .nil
  | one _ hone _ ih => exact .one hone (ih fun q hq v hv => hval q hq v (List.mem_cons_of_mem _ hv))
  | @run q _ vs ws hgap hsuffix _ ih =>
    refine .run hgap (fun v hv => hval q hgap v (List.mem_of_mem_head? hv)) hsuffix ?_
    exact ih fun q hq v hv => hval q hq v (hsuffix.subset hv)

/-- A symbol that stands for the letter it meets is read as that letter. -/
theorem reads_cons_iff_of_single (hone : single q v = true) :
    Reads single gap (q :: ps) (v :: vs) ↔ Reads single gap ps vs := by
  constructor
  · intro h
    cases h with
    | one _ hrest => exact hrest
    | run _ hhead _ _ =>
      have hnot := hhead v rfl
      rw [hone] at hnot
      cases hnot
  · exact .one hone

/-- A gap that stands at another letter takes any number of letters. -/
theorem reads_gap_iff (hone : single q v = false) (hgap : gap q = true) :
    Reads single gap (q :: ps) (v :: vs) ↔ ∃ ws, ws <:+ v :: vs ∧ Reads single gap ps ws := by
  constructor
  · intro h
    cases h with
    | one hyes _ =>
      rw [hone] at hyes
      cases hyes
    | run _ _ hsuffix hrest => exact ⟨_, hsuffix, hrest⟩
  · rintro ⟨ws, hsuffix, hrest⟩
    refine .run hgap ?_ hsuffix hrest
    intro w hw
    cases hw
    exact hone

theorem not_reads_cons (hone : single q v = false) (hgap : gap q = false) :
    ¬Reads single gap (q :: ps) (v :: vs) := by
  intro h
  cases h with
  | one hyes _ =>
    rw [hone] at hyes
    cases hyes
  | run hyes _ _ _ =>
    rw [hgap] at hyes
    cases hyes

theorem not_reads_nil_cons : ¬Reads single gap [] (v :: vs) := by
  intro h
  cases h

/-- Nothing is left of the word: only gaps may be left of the pattern. -/
theorem reads_nil_iff : Reads single gap pat [] ↔ pat.all gap = true := by
  induction pat with
  | nil => exact ⟨fun _ => rfl, fun _ => .nil⟩
  | cons q ps ih =>
    rw [List.all_cons, Bool.and_eq_true, ← ih]
    constructor
    · intro h
      cases h with
      | run hgap _ hsuffix hrest =>
        rw [List.suffix_nil.mp hsuffix] at hrest
        exact ⟨hgap, hrest⟩
    · rintro ⟨hgap, hrest⟩
      refine .run hgap ?_ List.suffix_rfl hrest
      intro v hv
      cases hv

/-- Where a gap can start, it does no harm to start it earlier. -/
theorem reads_gap_of_suffix (hone : single q v = false) (hgap : gap q = true) (hsuffix : ws <:+ v :: vs)
    (h : Reads single gap (q :: ps) ws) : Reads single gap (q :: ps) (v :: vs) := by
  refine (reads_gap_iff hone hgap).mpr ?_
  cases h with
  | one _ hrest => exact ⟨_, (List.suffix_cons _ _).trans hsuffix, hrest⟩
  | run _ _ hinner hrest => exact ⟨_, hinner.trans hsuffix, hrest⟩

/-- Letter by letter a stretch of the pattern stood for a stretch of the word.  Any other way
    to read that stretch of the pattern, from there or from further on, gets no less far. -/
theorem reads_past {seg : List π} {letters : List α} (hseg : List.Forall₂ (single · · = true) seg letters)
    (hsuffix : ws <:+ letters ++ rest) (h : Reads single gap (seg ++ pat) ws) :
    ∃ ws', ws' <:+ rest ∧ Reads single gap pat ws' := by
  induction hseg generalizing ws with
  | nil => exact ⟨ws, hsuffix, h⟩
  | @cons q v seg letters hone _ ih =>
    rcases List.suffix_cons_iff.mp hsuffix with rfl | hsuffix
    · exact ih List.suffix_rfl ((reads_cons_iff_of_single hone).mp h)
    · cases h with
      | one _ hrest => exact ih ((List.suffix_cons _ _).trans hsuffix) hrest
      | run _ _ hinner hrest => exact ih (hinner.trans hsuffix) hrest

end Languages

/-! ## The matcher -/

section Loop

variable (single gap)

/-- What is still to be found: the rest is read, or the last gap ends further on. -/
def Open (pat : List π) (val : List α) (back : Option (List π × List α)) : Prop :=
  Reads single gap pat val ∨
    ∃ ps ws, back = some (ps, ws) ∧ ∃ ws', ws' <:+ ws.tail ∧ Reads single gap ps ws'

/-- From the end of the last gap on, the pattern stood for the word letter by letter; `m` and
    `n` are the lengths that the two had in the beginning. -/
structure Standing (m n : Nat) (pat : List π) (val : List α) (back : Option (List π × List α)) : Prop where
  pat_le : pat.length ≤ m
  val_le : val.length ≤ n
  back_le : ∀ ps ws, back = some (ps, ws) → ps.length ≤ m ∧ ws.length ≤ n
  reached : ∀ ps ws, back = some (ps, ws) → ∃ seg letters, ps = seg ++ pat ∧ ws = letters ++ val ∧
    List.Forall₂ (single · · = true) seg letters

/-- The turns that are left at most: a gap is entered once for each symbol, ends once at each
    letter, and between two such turns both lists only shrink. -/
def budget (m n : Nat) (pat : List π) (val : List α) : Option (List π × List α) → Nat
  | none => m * ((n + 1) * (m + n + 2)) + (pat.length + val.length)
  | some (ps, ws) =>
    ps.length * ((n + 1) * (m + n + 2)) + ws.length * (m + n + 2) + (pat.length + val.length)

variable {single gap} {m n : Nat} {q : π} {v : α} {ps pat : List π} {vs ws val : List α}
  {back : Option (List π × List α)}

namespace Standing

theorem start (pat : List π) (val : List α) : Standing single pat.length val.length pat val none where
  pat_le := le_rfl
  val_le := le_rfl
  back_le := by
    intro ps ws h
    cases h
  reached := by
    intro ps ws h
    cases h

theorem step (h : Standing single m n (q :: ps) (v :: vs) back) (hone : single q v = true) :
    Standing single m n ps vs back where
  pat_le := Nat.le_of_succ_le h.pat_le
  val_le := Nat.le_of_succ_le h.val_le
  back_le := h.back_le
  reached := by
    intro ps' ws hback
    obtain ⟨seg, letters, rfl, rfl, hseg⟩ := h.reached ps' ws hback
    refine ⟨seg ++ [q], letters ++ [v], by simp, by simp, ?_⟩
    exact List.rel_append hseg (.cons hone .nil)

theorem restart (hps : ps.length ≤ m) (hws : ws.length ≤ n) : Standing single m n ps ws (some (ps, ws)) where
  pat_le := hps
  val_le := hws
  back_le := by
    intro ps' ws' h
    cases h
    exact ⟨hps, hws⟩
  reached := by
    intro ps' ws' h
    cases h
    exact ⟨[], [], rfl, rfl, .nil⟩

/-- The alternatives of the last gap are among the ways to read what is in front, from
    further on. -/
theorem past (h : Standing single m n pat val back) (hopen : Open single gap pat val back) :
    ∃ ws, ws <:+ val ∧ Reads single gap pat ws := by
  rcases hopen with hreads | ⟨ps, ws, hback, ws', hsuffix, hreads⟩
  · exact ⟨val, List.suffix_rfl, hreads⟩
  · obtain ⟨seg, letters, rfl, rfl, hseg⟩ := h.reached ps ws hback
    exact reads_past hseg (hsuffix.trans (List.tail_suffix _)) hreads

/-- While letters are left, there is one that the last gap has not taken. -/
theorem retriable (h : Standing single m n pat (v :: vs) (some (ps, ws))) : ∃ w ws', ws = w :: ws' := by
  obtain ⟨seg, letters, -, rfl, -⟩ := h.reached ps ws rfl
  cases letters with
  | nil => exact ⟨v, vs, rfl⟩
  | cons w letters => exact ⟨w, letters ++ v :: vs, rfl⟩

theorem budget_enter (h : Standing single m n (q :: ps) (v :: vs) back) :
    budget m n ps (v :: vs) (some (ps, v :: vs)) < budget m n (q :: ps) (v :: vs) back := by
  have hpat := h.pat_le
  have hval := h.val_le
  have hturn : budget m n ps (v :: vs) (some (ps, v :: vs)) < (ps.length + 1) * ((n + 1) * (m + n + 2)) := by
    have hletters : (v :: vs).length * (m + n + 2) ≤ n * (m + n + 2) := Nat.mul_le_mul_right _ hval
    simp only [budget, List.length_cons] at hpat hval hletters ⊢
    nlinarith
  have hsymbols : ∀ k, ps.length + 1 ≤ k → (ps.length + 1) * ((n + 1) * (m + n + 2)) ≤ k * ((n + 1) * (m + n + 2)) :=
    fun k hk => Nat.mul_le_mul_right _ hk
  cases back with
  | none =>
    have hfirst := hsymbols m hpat
    simp only [budget] at hturn ⊢
    omega
  | some b =>
    obtain ⟨ps', ws⟩ := b
    obtain ⟨seg, letters, rfl, -, -⟩ := h.reached ps' ws rfl
    have hlater := hsymbols (seg ++ q :: ps).length (by simp)
    simp only [budget] at hturn ⊢
    omega

/-- Taking a letter into the last gap uses up the letter. -/
theorem budget_retry {w : α} (h : Standing single m n pat val (some (ps, w :: ws))) :
    budget m n ps ws (some (ps, ws)) < budget m n pat val (some (ps, w :: ws)) := by
  obtain ⟨hps, hws⟩ := h.back_le ps _ rfl
  simp only [budget, List.length_cons, Nat.add_mul, Nat.one_mul] at hws ⊢
  omega

end Standing

/-- A gap that ends anywhere from here on is one that ends here or further on. -/
theorem open_restart :
    Open single gap ps ws (some (ps, ws)) ↔ ∃ ws', ws' <:+ ws ∧ Reads single gap ps ws' := by
  constructor
  · rintro (hreads | ⟨_, _, ⟨⟩, ws', hsuffix, hreads⟩)
    · exact ⟨ws, List.suffix_rfl, hreads⟩
    · exact ⟨ws', hsuffix.trans (List.tail_suffix _), hreads⟩
  · rintro ⟨ws', hsuffix, hreads⟩
    cases ws with
    | nil =>
      rw [List.suffix_nil.mp hsuffix] at hreads
      exact .inl hreads
    | cons w ws =>
      rcases List.suffix_cons_iff.mp hsuffix with rfl | hsuffix
      · exact .inl hreads
      · exact .inr ⟨ps, w :: ws, rfl, ws', hsuffix, hreads⟩

/-- Stuck, the matcher takes one more letter into the last gap. -/
theorem open_retry {w : α} (hstuck : ¬Reads single gap pat val) :
    Open single gap pat val (some (ps, w :: ws)) ↔ Open single gap ps ws (some (ps, ws)) := by
  rw [open_restart]
  constructor
  · rintro (hreads | ⟨_, _, ⟨⟩, halt⟩)
    · exact absurd hreads hstuck
    · exact halt
  · intro halt
    exact .inr ⟨ps, w :: ws, rfl, halt⟩

theorem not_open_none (hstuck : ¬Reads single gap pat val) : ¬Open single gap pat val none := by
  rintro (hreads | ⟨_, _, ⟨⟩, _⟩)
  exact hstuck hreads

/-- Entering a gap forgets the last one, and loses nothing by it. -/
theorem open_enter (h : Standing single m n (q :: ps) (v :: vs) back) (hone : single q v = false)
    (hgap : gap q = true) :
    Open single gap (q :: ps) (v :: vs) back ↔ Open single gap ps (v :: vs) (some (ps, v :: vs)) := by
  rw [open_restart, ← reads_gap_iff hone hgap]
  constructor
  · intro hopen
    obtain ⟨ws, hsuffix, hreads⟩ := h.past hopen
    exact reads_gap_of_suffix hone hgap hsuffix hreads
  · exact .inl

/-- At the end of the word the last gap has no letters left to take. -/
theorem open_end (h : Standing single m n pat [] back) :
    Open single gap pat [] back ↔ Reads single gap pat [] := by
  constructor
  · intro hopen
    obtain ⟨ws, hsuffix, hreads⟩ := h.past hopen
    rw [List.suffix_nil.mp hsuffix] at hreads
    exact hreads
  · exact .inl

theorem loop_iff {fuel : Nat} (h : Standing single m n pat val back)
    (hfuel : budget m n pat val back < fuel) :
    loop single gap fuel pat val back = true ↔ Open single gap pat val back := by
  induction fuel generalizing pat val back with
  | zero => exact absurd hfuel (Nat.not_lt_zero _)
  | succ fuel ih =>
    cases val with
    | nil => rw [loop, open_end h, reads_nil_iff]
    | cons v vs =>
      -- a pattern that cannot go on falls back to the last gap, which takes one letter more
      have hretry (hstuck : ¬Reads single gap pat (v :: vs)) :
          retry (loop single gap fuel) back = true ↔ Open single gap pat (v :: vs) back := by
        cases back with
        | none => simpa [retry] using not_open_none hstuck
        | some b =>
          obtain ⟨ps', ws⟩ := b
          obtain ⟨w, ws, rfl⟩ := h.retriable
          obtain ⟨hps, hws⟩ := h.back_le ps' _ rfl
          rw [open_retry hstuck]
          exact ih (Standing.restart hps (Nat.le_of_succ_le hws))
            (lt_of_lt_of_le h.budget_retry (Nat.le_of_lt_succ hfuel))
      cases pat with
      | nil =>
        rw [loop]
        exact hretry not_reads_nil_cons
      | cons q ps =>
        rw [loop]
        cases hone : single q v with
        | true =>
          have hshorter : budget m n ps vs back < fuel := by
            cases back <;> simp only [budget, List.length_cons] at hfuel ⊢ <;> omega
          rw [if_pos rfl, ih (h.step hone) hshorter, Open, Open, reads_cons_iff_of_single hone]
        | false =>
          rw [if_neg Bool.false_ne_true]
          cases hgap : gap q with
          | true =>
            have hps : ps.length ≤ m := Nat.le_of_succ_le h.pat_le
            rw [if_pos rfl, open_enter h hone hgap]
            exact ih (Standing.restart hps h.val_le) (lt_of_lt_of_le h.budget_enter (Nat.le_of_lt_succ hfuel))
          | false =>
            rw [if_neg Bool.false_ne_true]
            exact hretry (not_reads_cons hone hgap)

/-- The turns that suffice for a pattern and a word. -/
def turns (pat : List π) (val : List α) : Nat :=
  (pat.length + 1) * (val.length + 1) * (pat.length + val.length + 2)

theorem loop_start_iff (pat : List π) (val : List α) :
    loop single gap (turns pat val) pat val none = true ↔ Reads single gap pat val := by
  have hfuel : budget pat.length val.length pat val none < turns pat val := by
    simp only [budget, turns]
    nlinarith [Nat.zero_le (val.length * (pat.length + val.length + 2))]
  rw [loop_iff (Standing.start pat val) hfuel]
  constructor
  · rintro (hreads | ⟨_, _, ⟨⟩, _⟩)
    exact hreads
  · exact .inl

end Loop

end Glob
