import Mathlib.Tactic.FinCases
import S3Gateway.Go.Utf8

/-! # Spaces at the ends of a string

`strings.TrimSpace` decodes runes from both ends.  Whether there is a space at an end
is a question about bytes: whether one of finitely many encodings stands there. -/

namespace Go

/-- The encodings of the runes `unicode.IsSpace` holds of. -/
def spaceEncodings : List Bytes := [
  [0x09], [0x0A], [0x0B], [0x0C], [0x0D], [0x20], [0xC2, 0x85], [0xC2, 0xA0], [0xE1, 0x9A, 0x80],
  [0xE2, 0x80, 0x80], [0xE2, 0x80, 0x81], [0xE2, 0x80, 0x82], [0xE2, 0x80, 0x83],
  [0xE2, 0x80, 0x84], [0xE2, 0x80, 0x85], [0xE2, 0x80, 0x86], [0xE2, 0x80, 0x87],
  [0xE2, 0x80, 0x88], [0xE2, 0x80, 0x89], [0xE2, 0x80, 0x8A], [0xE2, 0x80, 0xA8],
  [0xE2, 0x80, 0xA9], [0xE2, 0x80, 0xAF], [0xE2, 0x81, 0x9F], [0xE3, 0x80, 0x80]]

/-! ## The first rune -/

theorem isSpace_iff (r : Rune) : isSpace r = true ↔
    (9 ≤ r ∧ r ≤ 13) ∨ r = 0x20 ∨ r = 0x85 ∨ r = 0xA0 ∨ r = 0x1680 ∨ (0x2000 ≤ r ∧ r ≤ 0x200A) ∨
      r = 0x2028 ∨ r = 0x2029 ∨ r = 0x202F ∨ r = 0x205F ∨ r = 0x3000 := by
  unfold isSpace
  simp only [Bool.or_eq_true, Bool.and_eq_true, decide_eq_true_eq, beq_iff_eq, or_assoc]

theorem isSpace_of_isPrefix {e s : Bytes} (he : e ∈ spaceEncodings) (h : e <+: s) :
    isSpace (decodeRune s).1 = true := by
  obtain ⟨t, rfl⟩ := h
  fin_cases he <;> rfl

theorem isSpace_runeError : isSpace runeError = false := by decide

theorem inRange_iff {lo hi b : UInt8} :
    inRange lo hi b = true ↔ lo.toNat ≤ b.toNat ∧ b.toNat ≤ hi.toNat := by
  simp only [inRange, Bool.and_eq_true, decide_eq_true_eq, UInt8.le_iff_toNat_le]

theorem space_two {b0 b1 : UInt8} (h0 : inRange 0xC2 0xDF b0 = true) (h1 : isCont b1 = true)
    (h : isSpace (b0.toNat % 32 * 64 + contBits b1) = true) : [b0, b1] ∈ spaceEncodings := by
  unfold isCont at h1
  rw [inRange_iff] at h0 h1
  rw [isSpace_iff] at h
  unfold Rune at h
  simp only [contBits, UInt8.reduceToNat] at h0 h1 h
  have hb0 : b0 = 0xC2 := UInt8.toNat_inj.mp (by simp only [UInt8.reduceToNat]; omega)
  have hb1 : b1 = 0x85 ∨ b1 = 0xA0 := by
    rw [← UInt8.toNat_inj, ← UInt8.toNat_inj]
    simp only [UInt8.reduceToNat]
    omega
  rcases hb1 with hb1 | hb1 <;> (rw [hb0, hb1]; decide)

theorem space_three {b0 b1 b2 : UInt8} (h0 : inRange 0xE0 0xEF b0 = true)
    (h1 : inRange (second3 b0).1 (second3 b0).2 b1 = true) (h2 : isCont b2 = true)
    (h : isSpace (b0.toNat % 16 * 4096 + contBits b1 * 64 + contBits b2) = true) :
    [b0, b1, b2] ∈ spaceEncodings := by
  -- an E0 lead takes no second byte that would make the rune shorter than three bytes
  have hcont : 0x80 ≤ b1.toNat ∧ b1.toNat ≤ 0xBF ∧ (b0.toNat = 0xE0 → 0xA0 ≤ b1.toNat) := by
    unfold second3 at h1
    rw [inRange_iff] at h1
    by_cases hlead : b0 = 0xE0
    · simp only [hlead, if_true, UInt8.reduceToNat] at h1
      omega
    · have hne : b0.toNat ≠ 0xE0 := fun h => hlead (UInt8.toNat_inj.mp h)
      rw [if_neg hlead] at h1
      split at h1 <;> (simp only [UInt8.reduceToNat] at h1; omega)
  unfold isCont at h2
  rw [inRange_iff] at h0 h2
  rw [isSpace_iff] at h
  unfold Rune at h
  simp only [contBits, UInt8.reduceToNat] at h0 h2 h
  have hbytes : b0.toNat = 0xE1 ∧ b1.toNat = 0x9A ∧ b2.toNat = 0x80 ∨
      b0.toNat = 0xE2 ∧ b1.toNat = 0x80 ∧ b2.toNat ≤ 0x8A ∨
      b0.toNat = 0xE2 ∧ b1.toNat = 0x80 ∧
        (b2.toNat = 0xA8 ∨ b2.toNat = 0xA9 ∨ b2.toNat = 0xAF) ∨
      b0.toNat = 0xE2 ∧ b1.toNat = 0x81 ∧ b2.toNat = 0x9F ∨
      b0.toNat = 0xE3 ∧ b1.toNat = 0x80 ∧ b2.toNat = 0x80 := by
    generalize b0.toNat = n0, b1.toNat = n1, b2.toNat = n2 at *
    rcases h with h | h | h | h | h | h | h | h | h | h | h
    -- the spaces below U+0800 are no three-byte runes
    iterate 4 exfalso; omega
    · exact .inl (by omega)
    · exact .inr (.inl (by omega))
    iterate 3 exact .inr (.inr (.inl (by omega)))
    · exact .inr (.inr (.inr (.inl (by omega))))
    · exact .inr (.inr (.inr (.inr (by omega))))
  have hthird : ∀ b2 : UInt8, 0x80 ≤ b2.toNat →
      (b2.toNat = 0x80 → [0xE1, 0x9A, b2] ∈ spaceEncodings ∧ [0xE3, 0x80, b2] ∈ spaceEncodings) ∧
      (b2.toNat ≤ 0x8A ∨ b2.toNat = 0xA8 ∨ b2.toNat = 0xA9 ∨ b2.toNat = 0xAF →
        [0xE2, 0x80, b2] ∈ spaceEncodings) ∧
      (b2.toNat = 0x9F → [0xE2, 0x81, b2] ∈ spaceEncodings) := forall_byte (by decide +kernel)
  obtain ⟨hone, htwo, hthree⟩ := hthird b2 h2.1
  have hlead : ∀ {x y m n : UInt8}, x.toNat = m.toNat → y.toNat = n.toNat → x = m ∧ y = n :=
    fun hx hy => ⟨UInt8.toNat_inj.mp hx, UInt8.toNat_inj.mp hy⟩
  rcases hbytes with ⟨h0, h1, h2⟩ | ⟨h0, h1, h2⟩ | ⟨h0, h1, h2⟩ | ⟨h0, h1, h2⟩ | ⟨h0, h1, h2⟩
  · obtain ⟨rfl, rfl⟩ := @hlead b0 b1 0xE1 0x9A h0 h1
    exact (hone h2).1
  · obtain ⟨rfl, rfl⟩ := @hlead b0 b1 0xE2 0x80 h0 h1
    exact htwo (.inl h2)
  · obtain ⟨rfl, rfl⟩ := @hlead b0 b1 0xE2 0x80 h0 h1
    exact htwo (.inr h2)
  · obtain ⟨rfl, rfl⟩ := @hlead b0 b1 0xE2 0x81 h0 h1
    exact hthree h2
  · obtain ⟨rfl, rfl⟩ := @hlead b0 b1 0xE3 0x80 h0 h1
    exact (hone h2).2

theorem not_space_four {b0 b1 : UInt8} (n : Nat) (h0 : inRange 0xF0 0xF4 b0 = true)
    (h1 : inRange (second4 b0).1 (second4 b0).2 b1 = true) :
    isSpace (b0.toNat % 8 * 262144 + contBits b1 * 4096 + n) = false := by
  have hcont : b1.toNat ≤ 0xBF ∧ (b0.toNat = 0xF0 → 0x90 ≤ b1.toNat) := by
    unfold second4 at h1
    rw [inRange_iff] at h1
    by_cases hlead : b0 = 0xF0
    · simp only [hlead, if_true, UInt8.reduceToNat] at h1
      omega
    · have hne : b0.toNat ≠ 0xF0 := fun h => hlead (UInt8.toNat_inj.mp h)
      rw [if_neg hlead] at h1
      split at h1 <;> (simp only [UInt8.reduceToNat] at h1; omega)
  rw [inRange_iff] at h0
  rw [← Bool.not_eq_true, isSpace_iff]
  unfold Rune
  simp only [contBits, UInt8.reduceToNat] at h0 ⊢
  omega

theorem prefix_of_isSpace {s : Bytes} (h : isSpace (decodeRune s).1 = true) :
    ∃ e ∈ spaceEncodings, e <+: s ∧ (decodeRune s).2 = e.length := by
  revert h
  fun_cases decodeRune s with
  | case2 b0 rest hascii =>
    intro h
    have hone : ∀ b : UInt8, b < 0x80 → isSpace b.toNat = true → [b] ∈ spaceEncodings :=
      forall_byte (by decide +kernel)
    exact ⟨[b0], hone b0 hascii h, ⟨rest, rfl⟩, rfl⟩
  | case3 b0 _ h0 b1 tail h1 =>
    intro h
    exact ⟨[b0, b1], space_two h0 h1 h, ⟨tail, rfl⟩, rfl⟩
  | case6 b0 _ _ h0 b1 b2 tail h1 =>
    intro h
    rw [Bool.and_eq_true] at h1
    exact ⟨[b0, b1, b2], space_three h0 h1.1 h1.2 h, ⟨tail, rfl⟩, rfl⟩
  | case9 b0 _ _ _ h0 b1 b2 b3 tail h1 =>
    intro h
    rw [Bool.and_eq_true, Bool.and_eq_true] at h1
    rw [Nat.add_assoc, not_space_four _ h0 h1.1.1] at h
    cases h
  | _ =>
    intro h
    rw [isSpace_runeError] at h
    cases h

/-! ## The last rune -/

theorem suffix_of_isSpace {s : Bytes} (h : isSpace (decodeLastRune s).1 = true) :
    ∃ e ∈ spaceEncodings, e <:+ s ∧ (decodeLastRune s).2 = e.length := by
  unfold decodeLastRune at h ⊢
  set tails := (s.drop (s.length - 4)).tails.filter fun t => !t.isEmpty
  dsimp only at h ⊢
  cases htail : (tails.reverse.find? fun t => !isCont (t.headD 0)).orElse fun _ => tails.head? with
  | none =>
    rw [htail] at h
    exact absurd h (by decide)
  | some t =>
    -- the tail that is decoded is one of the last four, whichever rule picked it
    have hmem : t ∈ tails := by
      cases hfind : tails.reverse.find? fun t => !isCont (t.headD 0) with
      | some t' =>
        rw [hfind] at htail
        cases htail
        exact List.mem_reverse.mp (List.mem_of_find?_eq_some hfind)
      | none =>
        rw [hfind] at htail
        exact List.mem_of_head? htail
    have hsuffix : t <:+ s :=
      ((List.mem_tails _ _).mp (List.mem_of_mem_filter hmem)).trans (List.drop_suffix _ _)
    rw [htail] at h
    dsimp only at h ⊢
    split at h
    · rename_i hwidth
      obtain ⟨e, he, hstart, hlen⟩ := prefix_of_isSpace h
      obtain rfl : e = t := hstart.eq_of_length (hlen.symm.trans hwidth)
      rw [if_pos hwidth]
      exact ⟨e, he, hsuffix, hlen⟩
    · exact absurd h (by decide)

/-- Looking back from the end, the start of an encoding is the first byte that can
    start a rune. -/
theorem find_tail_of_encoding {e : Bytes} (he : e ∈ spaceEncodings) (q : Bytes) :
    ((q ++ e).tails.filter fun t => !t.isEmpty).reverse.find? (fun t => !isCont (t.headD 0)) =
      some e := by
  induction q with
  | nil =>
    revert e
    decide
  | cons b q ih =>
    rw [List.cons_append, List.tails_cons, List.filter_cons_of_pos (by rfl), List.reverse_cons,
      List.find?_append, ih]
    rfl

theorem isSpace_of_suffix {e s : Bytes} (he : e ∈ spaceEncodings) (h : e <:+ s) :
    isSpace (decodeLastRune s).1 = true := by
  obtain ⟨p, rfl⟩ := h
  have hshort : e.length ≤ 4 := by
    revert e
    decide
  have hwhole : isSpace (decodeRune e).1 = true ∧ (decodeRune e).2 = e.length := by
    revert e
    decide +kernel
  have hdrop : (p ++ e).drop ((p ++ e).length - 4) = p.drop ((p ++ e).length - 4) ++ e := by
    refine List.drop_append_of_le_length ?_
    rw [List.length_append]
    omega
  unfold decodeLastRune
  dsimp only
  rw [hdrop, find_tail_of_encoding he]
  simp only [Option.orElse_some, hwhole, if_true]

/-! ## Trimming -/

structure Trimmed (s : Bytes) : Prop where
  first : ∀ e ∈ spaceEncodings, ¬e <+: s
  last : ∀ e ∈ spaceEncodings, ¬e <:+ s

theorem trimLeftLoop_suffix (fuel : Nat) (s : Bytes) : trimLeftLoop fuel s <:+ s := by
  induction fuel generalizing s with
  | zero => exact List.suffix_refl s
  | succ fuel ih =>
    cases s with
    | nil => exact List.suffix_refl []
    | cons b s =>
      simp only [trimLeftLoop]
      split
      · exact (ih _).trans (List.drop_suffix _ _)
      · exact List.suffix_refl _

theorem trimRightLoop_isPrefix (fuel : Nat) (s : Bytes) : trimRightLoop fuel s <+: s := by
  induction fuel generalizing s with
  | zero => exact List.prefix_refl s
  | succ fuel ih =>
    simp only [trimRightLoop]
    split
    · exact (ih _).trans (List.take_prefix _ _)
    · exact List.prefix_refl _

theorem mem_of_mem_trimSpace {s : Bytes} {x : UInt8} (h : x ∈ trimSpace s) : x ∈ s :=
  (trimLeftLoop_suffix _ s).subset ((trimRightLoop_isPrefix _ _).subset h)

theorem not_space_of_first {s : Bytes} (h : ∀ e ∈ spaceEncodings, ¬e <+: s) :
    isSpace (decodeRune s).1 = false := by
  rw [← Bool.not_eq_true]
  intro hspace
  obtain ⟨e, he, hstart, -⟩ := prefix_of_isSpace hspace
  exact h e he hstart

theorem not_space_of_last {s : Bytes} (h : ∀ e ∈ spaceEncodings, ¬e <:+ s) :
    isSpace (decodeLastRune s).1 = false := by
  rw [← Bool.not_eq_true]
  intro hspace
  obtain ⟨e, he, hsuffix, -⟩ := suffix_of_isSpace hspace
  exact h e he hsuffix

theorem spaceEncodings_length_pos {e : Bytes} (he : e ∈ spaceEncodings) : 0 < e.length := by
  revert e
  decide

theorem trimmed_nil : Trimmed [] where
  first := by decide
  last := by decide

theorem trimLeftLoop_first {fuel : Nat} {s : Bytes} (hfuel : s.length ≤ fuel) :
    ∀ e ∈ spaceEncodings, ¬e <+: trimLeftLoop fuel s := by
  induction fuel generalizing s with
  | zero =>
    obtain rfl := List.eq_nil_of_length_eq_zero (Nat.le_zero.mp hfuel)
    exact trimmed_nil.first
  | succ fuel ih =>
    cases s with
    | nil => exact trimmed_nil.first
    | cons b s =>
      simp only [trimLeftLoop]
      split
      · rename_i hspace
        obtain ⟨e, he, -, hwidth⟩ := prefix_of_isSpace hspace
        have hpos := spaceEncodings_length_pos he
        apply ih
        rw [List.length_drop, hwidth]
        rw [List.length_cons] at hfuel ⊢
        omega
      · rename_i hspace
        intro e he hstart
        exact hspace (isSpace_of_isPrefix he hstart)

theorem trimRightLoop_last {fuel : Nat} {s : Bytes} (hfuel : s.length ≤ fuel) :
    ∀ e ∈ spaceEncodings, ¬e <:+ trimRightLoop fuel s := by
  induction fuel generalizing s with
  | zero =>
    obtain rfl := List.eq_nil_of_length_eq_zero (Nat.le_zero.mp hfuel)
    exact trimmed_nil.last
  | succ fuel ih =>
    simp only [trimRightLoop]
    split
    · rename_i hspace
      obtain ⟨e, he, hsuffix, hwidth⟩ := suffix_of_isSpace hspace
      have hpos := spaceEncodings_length_pos he
      have hle := hsuffix.length_le
      apply ih
      rw [List.length_take, hwidth]
      omega
    · rename_i hspace
      intro e he hsuffix
      exact hspace (isSpace_of_suffix he hsuffix)

theorem trimmed_trimSpace (s : Bytes) : Trimmed (trimSpace s) where
  first e he hstart :=
    trimLeftLoop_first (Nat.le_refl _) e he (hstart.trans (trimRightLoop_isPrefix _ _))
  last := trimRightLoop_last (Nat.le_refl _)

theorem trimLeftLoop_eq_self {s : Bytes} (h : Trimmed s) (fuel : Nat) : trimLeftLoop fuel s = s := by
  cases fuel with
  | zero => rfl
  | succ fuel =>
    cases s with
    | nil => rfl
    | cons b s => simp [trimLeftLoop, not_space_of_first h.first]

theorem trimRightLoop_eq_self {s : Bytes} (h : Trimmed s) (fuel : Nat) : trimRightLoop fuel s = s := by
  cases fuel with
  | zero => rfl
  | succ fuel => simp [trimRightLoop, not_space_of_last h.last]

theorem trimSpace_eq_self {s : Bytes} (h : Trimmed s) : trimSpace s = s := by
  unfold trimSpace
  rw [trimLeftLoop_eq_self h]
  exact trimRightLoop_eq_self h _

theorem trimSpace_space_cons {s : Bytes} (h : Trimmed s) : trimSpace (ch ' ' :: s) = s := by
  have hspace : decodeRune (ch ' ' :: s) = (32, 1) := rfl
  have hleft : trimLeftLoop (ch ' ' :: s).length (ch ' ' :: s) = s := by
    simp only [List.length_cons, trimLeftLoop, hspace]
    exact trimLeftLoop_eq_self h _
  unfold trimSpace
  rw [hleft]
  exact trimRightLoop_eq_self h _

/-- A printing ASCII character other than the space. -/
def isVisible (b : UInt8) : Bool := 0x21 ≤ b && b ≤ 0x7E

theorem trimmed_of_visible {s : Bytes} (hfirst : ∀ b ∈ s.head?, isVisible b = true)
    (hlast : ∀ b ∈ s.getLast?, isVisible b = true) : Trimmed s := by
  have hends : ∀ e ∈ spaceEncodings, (∃ b ∈ e.head?, isVisible b = false) ∧
      ∃ b ∈ e.getLast?, isVisible b = false := by decide
  constructor
  · rintro e he ⟨t, rfl⟩
    obtain ⟨b, hb, hspace⟩ := (hends e he).1
    rw [hfirst b (by rw [List.head?_append, hb]; rfl)] at hspace
    cases hspace
  · rintro e he ⟨t, rfl⟩
    obtain ⟨b, hb, hspace⟩ := (hends e he).2
    rw [hlast b (by rw [List.getLast?_append, hb]; rfl)] at hspace
    cases hspace

theorem trimmed_of_all_visible {s : Bytes} (h : ∀ b ∈ s, isVisible b = true) : Trimmed s :=
  trimmed_of_visible (fun b hb => h b (List.mem_of_mem_head? hb)) fun b hb => h b (List.mem_of_mem_getLast? hb)

end Go
