import S3Gateway.Go.Bytes

/-! # Runes and case mapping

`[]rune(s)` decodes a string the way `unicode/utf8` does: every byte that does
not start a well-formed sequence becomes U+FFFD on its own.  The case tables are
data of the Go runtime; `Unicode` leaves them open above ASCII, so whatever is
proved here holds for every table that agrees with ASCII. -/

namespace Go

abbrev Rune := Nat

def runeError : Rune := 0xFFFD

/-! ## Decoding and encoding -/

/-- A continuation byte within `[lo, hi]`, the accept range of the second byte. -/
def inRange (lo hi b : UInt8) : Bool := lo ≤ b && b ≤ hi

def isCont (b : UInt8) : Bool := inRange 0x80 0xBF b

def contBits (b : UInt8) : Nat := b.toNat % 64

/-- The accept range of the byte after a three-byte lead. -/
def second3 (b0 : UInt8) : UInt8 × UInt8 :=
  if b0 = 0xE0 then (0xA0, 0xBF) else if b0 = 0xED then (0x80, 0x9F) else (0x80, 0xBF)

/-- The accept range of the byte after a four-byte lead. -/
def second4 (b0 : UInt8) : UInt8 × UInt8 :=
  if b0 = 0xF0 then (0x90, 0xBF) else if b0 = 0xF4 then (0x80, 0x8F) else (0x80, 0xBF)

/-- `utf8.DecodeRuneInString` on a non-empty string: the rune and its width. -/
def decodeRune : Bytes → Rune × Nat
  | [] => (runeError, 0)
  | b0 :: rest =>
    if b0 < 0x80 then (b0.toNat, 1)
    else if inRange 0xC2 0xDF b0 then
      match rest with
      | b1 :: _ => if isCont b1 then (b0.toNat % 32 * 64 + contBits b1, 2) else (runeError, 1)
      | _ => (runeError, 1)
    else if inRange 0xE0 0xEF b0 then
      match rest with
      | b1 :: b2 :: _ =>
        if inRange (second3 b0).1 (second3 b0).2 b1 && isCont b2 then
          (b0.toNat % 16 * 4096 + contBits b1 * 64 + contBits b2, 3)
        else (runeError, 1)
      | _ => (runeError, 1)
    else if inRange 0xF0 0xF4 b0 then
      match rest with
      | b1 :: b2 :: b3 :: _ =>
        if inRange (second4 b0).1 (second4 b0).2 b1 && isCont b2 && isCont b3 then
          (b0.toNat % 8 * 262144 + contBits b1 * 4096 + contBits b2 * 64 + contBits b3, 4)
        else (runeError, 1)
      | _ => (runeError, 1)
    else (runeError, 1)

/-- The decoding loop; each turn consumes at least one byte, so the length of
    the string is enough fuel. -/
def runesLoop : Nat → Bytes → List Rune
  | 0, _ => []
  | _ + 1, [] => []
  | fuel + 1, b :: s =>
    let (r, width) := decodeRune (b :: s)
    r :: runesLoop fuel ((b :: s).drop width)

/-- `[]rune(s)`. -/
def runes (s : Bytes) : List Rune := runesLoop s.length s

/-- `utf8.AppendRune(nil, r)`. -/
def encodeRune (r : Rune) : Bytes :=
  if r < 0x80 then [r.toUInt8]
  else if r < 0x800 then [(0xC0 + r / 64).toUInt8, (0x80 + r % 64).toUInt8]
  else if (0xD800 ≤ r && r ≤ 0xDFFF) || 0x10FFFF < r then [0xEF, 0xBF, 0xBD]
  else if r < 0x10000 then
    [(0xE0 + r / 4096).toUInt8, (0x80 + r / 64 % 64).toUInt8, (0x80 + r % 64).toUInt8]
  else
    [(0xF0 + r / 262144).toUInt8, (0x80 + r / 4096 % 64).toUInt8, (0x80 + r / 64 % 64).toUInt8,
      (0x80 + r % 64).toUInt8]

theorem decodeRune_ascii {b0 : UInt8} (h : b0 < 0x80) (rest : Bytes) :
    decodeRune (b0 :: rest) = (b0.toNat, 1) := by
  simp only [decodeRune, if_pos h]

theorem runes_append_ascii {s : Bytes} (h : ∀ b ∈ s, b < 0x80) (t : Bytes) :
    runes (s ++ t) = s.map UInt8.toNat ++ runes t := by
  unfold runes
  induction s with
  | nil => rfl
  | cons b s ih =>
    rw [List.forall_mem_cons] at h
    simp only [List.cons_append, List.length_cons, runesLoop, decodeRune_ascii h.1, List.drop_one, List.tail_cons, ih h.2,
      List.map_cons]

theorem runes_ascii {s : Bytes} (h : ∀ b ∈ s, b < 0x80) : runes s = s.map UInt8.toNat := by
  have hruns := runes_append_ascii h []
  rw [List.append_nil] at hruns
  rw [hruns]
  exact List.append_nil _

/-! ## Case -/

def asciiLower (r : Rune) : Rune := if 65 ≤ r && r ≤ 90 then r + 32 else r

theorem asciiLower_not_capital (r : Rune) : asciiLower r < 65 ∨ 90 < asciiLower r := by
  unfold asciiLower Rune at *
  by_cases hcapital : 65 ≤ r ∧ r ≤ 90
  · rw [if_pos (by simpa using hcapital)]
    omega
  · rw [if_neg (by simpa using hcapital)]
    omega

def asciiUpper (r : Rune) : Rune := if 97 ≤ r && r ≤ 122 then r - 32 else r

/-- The case tables of package `unicode`: `lower` is `unicode.ToLower`, `upper` is
    `unicode.ToUpper`, `fold` the representative of a rune's simple-folding orbit.
    Only their values on ASCII are fixed, and that no lower case is an ASCII capital. -/
class Unicode where
  lower : Rune → Rune
  upper : Rune → Rune
  fold : Rune → Rune
  lower_ascii : ∀ r, r < 0x80 → lower r = asciiLower r
  lower_not_capital : ∀ r, lower r < 65 ∨ 90 < lower r
  upper_ascii : ∀ r, r < 0x80 → upper r = asciiUpper r
  fold_ascii : ∀ r, r < 0x80 → fold r = asciiLower r

/-- Tables without any case mapping above ASCII. -/
@[reducible] def asciiTables : Unicode where
  lower := asciiLower
  upper := asciiUpper
  fold := asciiLower
  lower_ascii _ _ := rfl
  lower_not_capital := asciiLower_not_capital
  upper_ascii _ _ := rfl
  fold_ascii _ _ := rfl

/-! ## Spaces -/

def isSpace (r : Rune) : Bool :=
  (9 ≤ r && r ≤ 13) || r == 0x20 || r == 0x85 || r == 0xA0 || r == 0x1680 ||
    (0x2000 ≤ r && r ≤ 0x200A) || r == 0x2028 || r == 0x2029 || r == 0x202F || r == 0x205F ||
    r == 0x3000

/-- `utf8.DecodeLastRuneInString` on a non-empty string: decodes from the last
    byte, among the final four, that can start a sequence. -/
def decodeLastRune (s : Bytes) : Rune × Nat :=
  let tails := (s.drop (s.length - 4)).tails.filter fun t => !t.isEmpty
  match (tails.reverse.find? fun t => !isCont (t.headD 0)).orElse fun _ => tails.head? with
  | some t =>
    let (r, width) := decodeRune t
    if width = t.length then (r, width) else (runeError, 1)
  | none => (runeError, 0)

def trimLeftLoop : Nat → Bytes → Bytes
  | 0, s => s
  | _ + 1, [] => []
  | fuel + 1, b :: s =>
    let (r, width) := decodeRune (b :: s)
    if isSpace r then trimLeftLoop fuel ((b :: s).drop width) else b :: s

def trimRightLoop : Nat → Bytes → Bytes
  | 0, s => s
  | fuel + 1, s =>
    let (r, width) := decodeLastRune s
    if isSpace r then trimRightLoop fuel (s.take (s.length - width)) else s

def trimSpace (s : Bytes) : Bytes :=
  let t := trimLeftLoop s.length s
  trimRightLoop t.length t

variable [Unicode]

/-- `strings.ToLower(s)`; a byte that is not UTF-8 comes out as U+FFFD, as from
    `strings.Map`. -/
def toLower (s : Bytes) : Bytes := (runes s).flatMap fun r => encodeRune (Unicode.lower r)

theorem toLower_ascii {s : Bytes} (h : ∀ b ∈ s, b < 0x80) : toLower s = s.map lowerByte := by
  have hbyte : ∀ b : UInt8, b < 0x80 →
      b.toNat < 0x80 ∧ encodeRune (asciiLower b.toNat) = [lowerByte b] :=
    forall_byte (by decide +kernel)
  rw [toLower, runes_ascii h, List.flatMap_map]
  induction s with
  | nil => rfl
  | cons b s ih =>
    rw [List.forall_mem_cons] at h
    obtain ⟨hascii, hlower⟩ := hbyte b h.1
    rw [List.flatMap_cons, ih h.2, Unicode.lower_ascii _ hascii, hlower, List.map_cons]
    rfl

def NoCapital (s : Bytes) : Prop := ∀ b ∈ s, b < 65 ∨ 90 < b

omit [Unicode] in
theorem noCapital_encodeRune {r : Rune} (hr : r < 65 ∨ 90 < r) : NoCapital (encodeRune r) := by
  intro b hb
  have hhigh : ∀ n, 128 ≤ n → n < 256 → n.toUInt8 < 65 ∨ 90 < n.toUInt8 := by
    intro n hlo hhi
    right
    rw [UInt8.lt_iff_toNat_lt]
    simp only [Nat.toUInt8, UInt8.toNat_ofNat', UInt8.reduceToNat]
    omega
  unfold encodeRune at hb
  unfold Rune at *
  split at hb
  · obtain rfl := List.mem_singleton.mp hb
    rw [UInt8.lt_iff_toNat_lt, UInt8.lt_iff_toNat_lt]
    simp only [Nat.toUInt8, UInt8.toNat_ofNat', UInt8.reduceToNat]
    omega
  · -- every byte of a longer encoding has its high bit set
    split at hb
    · simp only [List.mem_cons, List.not_mem_nil, or_false] at hb
      rcases hb with rfl | rfl <;> exact hhigh _ (by omega) (by omega)
    · split at hb
      · simp only [List.mem_cons, List.not_mem_nil, or_false] at hb
        rcases hb with rfl | rfl | rfl <;> decide
      · rename_i hvalid
        simp only [Bool.or_eq_true, Bool.and_eq_true, decide_eq_true_eq, not_or] at hvalid
        split at hb
        · simp only [List.mem_cons, List.not_mem_nil, or_false] at hb
          rcases hb with rfl | rfl | rfl <;> exact hhigh _ (by omega) (by omega)
        · simp only [List.mem_cons, List.not_mem_nil, or_false] at hb
          rcases hb with rfl | rfl | rfl | rfl <;> exact hhigh _ (by omega) (by omega)

theorem noCapital_toLower (s : Bytes) : NoCapital (toLower s) := by
  intro b hb
  obtain ⟨r, -, hr⟩ := List.mem_flatMap.mp hb
  exact noCapital_encodeRune (Unicode.lower_not_capital r) b hr

def toUpper (s : Bytes) : Bytes := (runes s).flatMap fun r => encodeRune (Unicode.upper r)

def equalFold (s t : Bytes) : Bool :=
  (runes s).map Unicode.fold == (runes t).map Unicode.fold

theorem equalFold_append {s t t' : Bytes} (hs : ∀ b ∈ s, b < 0x80) (h : equalFold t t' = true) :
    equalFold (s ++ t) (s ++ t') = true := by
  rw [equalFold, beq_iff_eq] at h ⊢
  rw [runes_append_ascii hs, runes_append_ascii hs, List.map_append, List.map_append, h]

end Go
