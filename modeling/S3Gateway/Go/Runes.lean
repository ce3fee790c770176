import S3Gateway.Go.Space

/-! # Strings are their runes

What is encoded decodes to itself, and decoding yields nothing that cannot be encoded.  So
lower case is stable where the table behind it is. -/

namespace Go

def ValidRune (r : Rune) : Prop := r < 0xD800 ∨ 0xDFFF < r ∧ r ≤ 0x10FFFF

theorem toNat_toUInt8 {n : Nat} (h : n < 256) : n.toUInt8.toNat = n := by
  rw [Nat.toUInt8, UInt8.toNat_ofNat']
  exact Nat.mod_eq_of_lt h

theorem isCont_iff {b : UInt8} : isCont b = true ↔ 0x80 ≤ b.toNat ∧ b.toNat ≤ 0xBF := inRange_iff

theorem not_ascii {b : UInt8} (h : 0x80 ≤ b.toNat) : ¬b < 0x80 :=
  fun hlt => absurd (UInt8.lt_iff_toNat_lt.mp hlt) (Nat.not_lt.mpr h)

theorem not_inRange {lo hi b : UInt8} (h : hi.toNat < b.toNat) : ¬inRange lo hi b = true :=
  fun hin => absurd (inRange_iff.mp hin).2 (Nat.not_le.mpr h)

/-! ## Decoding by width -/

section Widths

variable {b0 b1 b2 b3 : UInt8} (rest : Bytes)

theorem decodeRune_two (h0 : 0xC2 ≤ b0.toNat ∧ b0.toNat ≤ 0xDF) (h1 : isCont b1 = true) :
    decodeRune (b0 :: b1 :: rest) = (b0.toNat % 32 * 64 + contBits b1, 2) := by
  have hlead := not_ascii (b := b0) (by omega)
  have hrange : inRange 0xC2 0xDF b0 = true := inRange_iff.mpr h0
  simp [decodeRune, hlead, hrange, h1]

theorem decodeRune_three (h0 : 0xE0 ≤ b0.toNat ∧ b0.toNat ≤ 0xEF)
    (h1 : inRange (second3 b0).1 (second3 b0).2 b1 = true) (h2 : isCont b2 = true) :
    decodeRune (b0 :: b1 :: b2 :: rest) = (b0.toNat % 16 * 4096 + contBits b1 * 64 + contBits b2, 3) := by
  have hlead := not_ascii (b := b0) (by omega)
  have htwo : ¬inRange 0xC2 0xDF b0 = true := not_inRange (Nat.lt_of_lt_of_le (by decide) h0.1)
  have hrange : inRange 0xE0 0xEF b0 = true := inRange_iff.mpr h0
  simp [decodeRune, hlead, htwo, hrange, h1, h2]

theorem decodeRune_four (h0 : 0xF0 ≤ b0.toNat ∧ b0.toNat ≤ 0xF4)
    (h1 : inRange (second4 b0).1 (second4 b0).2 b1 = true) (h2 : isCont b2 = true)
    (h3 : isCont b3 = true) :
    decodeRune (b0 :: b1 :: b2 :: b3 :: rest) =
      (b0.toNat % 8 * 262144 + contBits b1 * 4096 + contBits b2 * 64 + contBits b3, 4) := by
  have hlead := not_ascii (b := b0) (by omega)
  have htwo : ¬inRange 0xC2 0xDF b0 = true := not_inRange (Nat.lt_of_lt_of_le (by decide) h0.1)
  have hthree : ¬inRange 0xE0 0xEF b0 = true := not_inRange (Nat.lt_of_lt_of_le (by decide) h0.1)
  have hrange : inRange 0xF0 0xF4 b0 = true := inRange_iff.mpr h0
  simp [decodeRune, hlead, htwo, hthree, hrange, h1, h2, h3]

end Widths

/-! ## Encoding -/

theorem inRange_second3 {b0 b1 : UInt8} (h : 0x80 ≤ b1.toNat ∧ b1.toNat ≤ 0xBF)
    (hlow : b0.toNat = 0xE0 → 0xA0 ≤ b1.toNat) (hsurrogate : b0.toNat = 0xED → b1.toNat ≤ 0x9F) :
    inRange (second3 b0).1 (second3 b0).2 b1 = true := by
  rw [inRange_iff]
  unfold second3
  split
  · rename_i hlead
    exact ⟨hlow (by rw [hlead]; rfl), h.2⟩
  · split
    · rename_i hlead
      exact ⟨h.1, hsurrogate (by rw [hlead]; rfl)⟩
    · exact h

theorem inRange_second4 {b0 b1 : UInt8} (h : 0x80 ≤ b1.toNat ∧ b1.toNat ≤ 0xBF)
    (hlow : b0.toNat = 0xF0 → 0x90 ≤ b1.toNat) (hhigh : b0.toNat = 0xF4 → b1.toNat ≤ 0x8F) :
    inRange (second4 b0).1 (second4 b0).2 b1 = true := by
  rw [inRange_iff]
  unfold second4
  split
  · rename_i hlead
    exact ⟨hlow (by rw [hlead]; rfl), h.2⟩
  · split
    · rename_i hlead
      exact ⟨h.1, hhigh (by rw [hlead]; rfl)⟩
    · exact h

theorem contByte (n : Nat) : (0x80 + n % 64).toUInt8.toNat = 0x80 + n % 64 ∧
    isCont (0x80 + n % 64).toUInt8 = true ∧ contBits (0x80 + n % 64).toUInt8 = n % 64 := by
  have hval : (0x80 + n % 64).toUInt8.toNat = 0x80 + n % 64 := toNat_toUInt8 (by omega)
  rw [isCont_iff, contBits, hval]
  omega

theorem decodeRune_encodeRune {r : Rune} (h : ValidRune r) (rest : Bytes) :
    decodeRune (encodeRune r ++ rest) = (r, (encodeRune r).length) := by
  unfold ValidRune Rune at *
  obtain ⟨hval₀, hcont₀, hbits₀⟩ := contByte r
  obtain ⟨hval₁, hcont₁, hbits₁⟩ := contByte (r / 64)
  obtain ⟨hval₂, hcont₂, hbits₂⟩ := contByte (r / 4096)
  -- by the number of bytes, as `encodeRune` chooses it
  by_cases hone : r < 0x80
  · have hbyte : r.toUInt8 < 0x80 := by
      rw [UInt8.lt_iff_toNat_lt, toNat_toUInt8 (by omega)]
      exact hone
    rw [encodeRune, if_pos hone]
    simp only [List.cons_append, decodeRune, if_pos hbyte, toNat_toUInt8 (show r < 256 by omega)]
    rfl
  by_cases htwo : r < 0x800
  · have hlead : (0xC0 + r / 64).toUInt8.toNat = 0xC0 + r / 64 := toNat_toUInt8 (by omega)
    rw [encodeRune, if_neg hone, if_pos htwo]
    simp only [List.cons_append, List.nil_append]
    rw [decodeRune_two _ (by omega) hcont₀, hlead, hbits₀]
    exact Prod.ext (by dsimp only; omega) rfl
  have hvalid : ((0xD800 ≤ r && r ≤ 0xDFFF) || 0x10FFFF < r) = false := by
    simp only [Bool.or_eq_false_iff, Bool.and_eq_false_iff, decide_eq_false_iff_not]
    omega
  by_cases hthree : r < 0x10000
  · have hlead : (0xE0 + r / 4096).toUInt8.toNat = 0xE0 + r / 4096 := toNat_toUInt8 (by omega)
    rw [encodeRune, if_neg hone, if_neg htwo, hvalid, if_neg Bool.false_ne_true, if_pos hthree]
    simp only [List.cons_append, List.nil_append]
    rw [decodeRune_three _ (by omega) (inRange_second3 (by omega) (by omega) (by omega)) hcont₀, hlead,
      hbits₀, hbits₁]
    exact Prod.ext (by dsimp only; omega) rfl
  · have hlead : (0xF0 + r / 262144).toUInt8.toNat = 0xF0 + r / 262144 := toNat_toUInt8 (by omega)
    rw [encodeRune, if_neg hone, if_neg htwo, hvalid, if_neg Bool.false_ne_true, if_neg hthree]
    simp only [List.cons_append, List.nil_append]
    rw [decodeRune_four _ (by omega) (inRange_second4 (by omega) (by omega) (by omega)) hcont₁ hcont₀, hlead,
      hbits₀, hbits₁, hbits₂]
    exact Prod.ext (by dsimp only; omega) rfl

theorem encodeRune_length_pos (r : Rune) : 0 < (encodeRune r).length := by
  unfold encodeRune
  split
  · exact Nat.one_pos
  · split
    · exact Nat.two_pos
    · split
      · decide
      · split
        · exact Nat.succ_pos 2
        · exact Nat.succ_pos 3

theorem runes_flatMap_encodeRune {rs : List Rune} (h : ∀ r ∈ rs, ValidRune r) :
    runes (rs.flatMap encodeRune) = rs := by
  suffices hloop : ∀ fuel, (rs.flatMap encodeRune).length ≤ fuel →
      runesLoop fuel (rs.flatMap encodeRune) = rs from hloop _ (Nat.le_refl _)
  induction rs with
  | nil =>
    intro fuel _
    cases fuel <;> rfl
  | cons r rs ih =>
    intro fuel hfuel
    rw [List.forall_mem_cons] at h
    rw [List.flatMap_cons] at hfuel ⊢
    rw [List.length_append] at hfuel
    have hpos := encodeRune_length_pos r
    have hdecode := decodeRune_encodeRune h.1 (rs.flatMap encodeRune)
    obtain ⟨fuel, rfl⟩ := Nat.exists_eq_add_one.mpr (Nat.lt_of_lt_of_le hpos (by omega : _ ≤ fuel))
    obtain ⟨b, tail, hcons⟩ := List.exists_cons_of_ne_nil (List.length_pos_iff.mp hpos)
    have hrest := ih h.2 fuel (by omega)
    rw [hcons] at hdecode ⊢
    rw [List.cons_append] at hdecode ⊢
    rw [runesLoop, hdecode]
    dsimp only
    rw [← List.cons_append, List.drop_left, hrest]

/-! ## What is decoded can be encoded -/

theorem inRange_of_second3 {b0 b1 : UInt8} (h : inRange (second3 b0).1 (second3 b0).2 b1 = true) :
    b1.toNat ≤ 0xBF ∧ 0x80 ≤ b1.toNat ∧ (b0.toNat = 0xE0 → 0xA0 ≤ b1.toNat) ∧
      (b0.toNat = 0xED → b1.toNat ≤ 0x9F) := by
  unfold second3 at h
  rw [inRange_iff] at h
  split at h
  · rename_i hlead
    refine ⟨h.2, Nat.le_trans (by decide) h.1, fun _ => h.1, fun hed => ?_⟩
    rw [hlead] at hed
    cases hed
  · rename_i hlow
    have hne : b0.toNat ≠ 0xE0 := fun he0 => hlow (UInt8.toNat_inj.mp he0)
    split at h
    · exact ⟨Nat.le_trans h.2 (by decide), h.1, fun he0 => absurd he0 hne, fun _ => h.2⟩
    · rename_i hlead
      exact ⟨h.2, h.1, fun he0 => absurd he0 hne, fun hed => absurd (UInt8.toNat_inj.mp hed) hlead⟩

theorem inRange_of_second4 {b0 b1 : UInt8} (h : inRange (second4 b0).1 (second4 b0).2 b1 = true) :
    b1.toNat ≤ 0xBF ∧ 0x80 ≤ b1.toNat ∧ (b0.toNat = 0xF0 → 0x90 ≤ b1.toNat) ∧
      (b0.toNat = 0xF4 → b1.toNat ≤ 0x8F) := by
  unfold second4 at h
  rw [inRange_iff] at h
  split at h
  · rename_i hlead
    refine ⟨h.2, Nat.le_trans (by decide) h.1, fun _ => h.1, fun hf4 => ?_⟩
    rw [hlead] at hf4
    cases hf4
  · rename_i hlow
    have hne : b0.toNat ≠ 0xF0 := fun hf0 => hlow (UInt8.toNat_inj.mp hf0)
    split at h
    · exact ⟨Nat.le_trans h.2 (by decide), h.1, fun hf0 => absurd hf0 hne, fun _ => h.2⟩
    · rename_i hlead
      exact ⟨h.2, h.1, fun hf0 => absurd hf0 hne, fun hf4 => absurd (UInt8.toNat_inj.mp hf4) hlead⟩

def WideRune (r : Rune) : Prop := 0x80 ≤ r ∧ ValidRune r

theorem wideRune_runeError : WideRune runeError := ⟨by decide, .inr (by decide)⟩

/-- A byte that is not ASCII starts a longer encoding or is an error; no shorter encoding is hidden
    in a longer one. -/
theorem wideRune_decodeRune {b0 : UInt8} (h : ¬b0 < 0x80) (rest : Bytes) :
    WideRune (decodeRune (b0 :: rest)).1 := by
  have hb0 := b0.toNat_lt
  -- by the length the lead byte announces; the ranges of the second byte keep out what is overlong
  simp only [decodeRune, if_neg h]
  split
  · -- the lead bytes 0xC0 and 0xC1 are out of the range, so two bytes hold at least 0x80
    rename_i htwo
    have hlead := inRange_iff.mp htwo
    simp only [UInt8.reduceToNat] at hlead
    split
    · split
      · unfold WideRune ValidRune Rune contBits
        dsimp only
        omega
      · exact wideRune_runeError
    · exact wideRune_runeError
  · split
    · rename_i hthree
      have hlead := inRange_iff.mp hthree
      simp only [UInt8.reduceToNat] at hlead
      split
      · split
        · rename_i hbytes
          rw [Bool.and_eq_true] at hbytes
          have hsecond := inRange_of_second3 hbytes.1
          unfold WideRune ValidRune Rune contBits
          dsimp only
          omega
        · exact wideRune_runeError
      · exact wideRune_runeError
    · split
      · rename_i hfour
        have hlead := inRange_iff.mp hfour
        simp only [UInt8.reduceToNat] at hlead
        split
        · split
          · rename_i hbytes
            simp only [Bool.and_eq_true] at hbytes
            have hsecond := inRange_of_second4 hbytes.1.1
            unfold WideRune ValidRune Rune contBits
            dsimp only
            omega
          · exact wideRune_runeError
        · exact wideRune_runeError
      · exact wideRune_runeError

theorem validRune_decodeRune (s : Bytes) : ValidRune (decodeRune s).1 := by
  cases s with
  | nil => exact wideRune_runeError.2
  | cons b0 rest =>
    by_cases hascii : b0 < 0x80
    · rw [decodeRune_ascii hascii]
      have hb0 := b0.toNat_lt
      exact .inl (by dsimp only [Rune]; omega)
    · exact (wideRune_decodeRune hascii rest).2

theorem validRune_of_mem_runes {s : Bytes} : ∀ r ∈ runes s, ValidRune r := by
  suffices hloop : ∀ fuel (s : Bytes), ∀ r ∈ runesLoop fuel s, ValidRune r from hloop _ s
  intro fuel
  induction fuel with
  | zero => nofun
  | succ fuel ih =>
    intro s r hr
    cases s with
    | nil => cases hr
    | cons b s =>
      have hfirst := validRune_decodeRune (b :: s)
      rw [runesLoop] at hr
      generalize decodeRune (b :: s) = decoded at hr hfirst
      rcases List.mem_cons.mp hr with rfl | hr
      · exact hfirst
      · exact ih _ r hr

theorem ascii_of_runes {s : Bytes} (h : ∀ r ∈ runes s, r < 0x80) : ∀ b ∈ s, b < 0x80 := by
  suffices hloop : ∀ fuel (s : Bytes), s.length ≤ fuel → (∀ r ∈ runesLoop fuel s, r < 0x80) →
      ∀ b ∈ s, b < 0x80 from
    hloop _ s (Nat.le_refl _) h
  intro fuel
  induction fuel with
  | zero =>
    intro s hfuel _ b hb
    rw [List.length_eq_zero_iff.mp (Nat.le_zero.mp hfuel)] at hb
    cases hb
  | succ fuel ih =>
    intro s hfuel hrunes
    cases s with
    | nil => simp
    | cons b0 rest =>
      rw [runesLoop] at hrunes
      -- the first byte is its own rune, or it would start a wide one
      by_cases hascii : b0 < 0x80
      · rw [decodeRune_ascii hascii] at hrunes
        simp only [List.drop_one, List.tail_cons, List.forall_mem_cons] at hrunes ⊢
        exact ⟨hascii, ih rest (Nat.le_of_succ_le_succ hfuel) hrunes.2⟩
      · have hwide := (wideRune_decodeRune hascii rest).1
        have hfirst := hrunes _ (List.mem_cons_self ..)
        exact absurd hfirst (Nat.not_lt.mpr hwide)

/-! ## Lower case -/

/-- The lower case of a rune is a rune, and its own lower case. -/
structure Unicode.Stable [Unicode] : Prop where
  lower_valid : ∀ r, ValidRune r → ValidRune (Unicode.lower r)
  lower_lower : ∀ r, Unicode.lower (Unicode.lower r) = Unicode.lower r

theorem toLower_toLower [Unicode] (h : Unicode.Stable) (s : Bytes) : toLower (toLower s) = toLower s := by
  have hlower : toLower s = ((runes s).map Unicode.lower).flatMap encodeRune := by
    rw [toLower, List.flatMap_map]
  have hvalid : ∀ r ∈ (runes s).map Unicode.lower, ValidRune r := by
    intro r hr
    obtain ⟨r', hr', rfl⟩ := List.mem_map.mp hr
    exact h.lower_valid r' (validRune_of_mem_runes r' hr')
  rw [toLower, hlower, runes_flatMap_encodeRune hvalid, List.flatMap_map, List.flatMap_map]
  simp only [h.lower_lower]

theorem asciiTables_stable : @Unicode.Stable asciiTables := by
  refine @Unicode.Stable.mk asciiTables ?_ ?_
  · intro r hr
    change ValidRune (asciiLower r)
    unfold asciiLower ValidRune Rune at *
    split
    · rename_i hcapital
      simp only [Bool.and_eq_true, decide_eq_true_eq] at hcapital
      omega
    · exact hr
  · intro r
    change asciiLower (asciiLower r) = asciiLower r
    have hsmall := asciiLower_not_capital r
    generalize asciiLower r = r' at *
    unfold asciiLower Rune at *
    rw [if_neg]
    simp only [Bool.and_eq_true, decide_eq_true_eq]
    omega

end Go
