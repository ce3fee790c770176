import S3Gateway.Go.Bytes
import Mathlib.Data.BitVec

/-! # IP addresses and prefixes

Package `net/netip`: addresses of the two families, their textual forms, and
prefix containment. -/

namespace Go

/-- `netip.Addr`.  The zero `Addr` is a value of its own, neither IPv4 nor
    IPv6. -/
inductive Addr where
  | zero
  | v4 (bits : BitVec 32)
  | v6 (bits : BitVec 128) (zone : Bytes)
deriving DecidableEq

namespace Addr

def isValid : Addr → Bool
  | zero => false
  | _ => true

def zone : Addr → Bytes
  | v6 _ z => z
  | _ => []

def bitLen : Addr → Nat
  | zero => 0
  | v4 _ => 32
  | v6 _ _ => 128

/-- `Addr.Is4In6()`: `::ffff:a.b.c.d`. -/
def is4In6 : Addr → Bool
  | v6 b _ => b.extractLsb' 32 96 == 0xFFFF
  | _ => false

/-- `Addr.Unmap()`: an IPv4-mapped IPv6 address as IPv4, its zone dropped. -/
def unmap : Addr → Addr
  | v6 b z => if b.extractLsb' 32 96 == 0xFFFF then v4 (b.extractLsb' 0 32) else v6 b z
  | a => a

def withoutZone : Addr → Addr
  | v6 b _ => v6 b []
  | a => a

end Addr

/-- `netip.Prefix`; `bits = none` is the invalid prefix. -/
structure Prefix where
  ip : Addr
  bits : Option Nat
deriving DecidableEq

def prefixFrom (ip : Addr) (bits : Nat) : Prefix :=
  { ip := ip.withoutZone
    bits := if ip.isValid && bits ≤ ip.bitLen then some bits else none }

/-- `Prefix.Contains(ip)`: false across families and for a zoned address. -/
def Prefix.contains (p : Prefix) (ip : Addr) : Bool :=
  match p.bits, p.ip, ip with
  | some n, .v4 b, .v4 a => (a ^^^ b) >>> (32 - n) == 0
  | some n, .v6 b _, .v6 a z => z.isEmpty && (a ^^^ b) &&& (BitVec.allOnes 128 <<< (128 - n)) == 0
  | _, _, _ => false

/-! ## Parsing -/

def isDigit (b : UInt8) : Bool := ch '0' ≤ b && b ≤ ch '9'

def digitVal (b : UInt8) : Nat := b.toNat - 48

def hexVal (b : UInt8) : Option Nat :=
  if ch '0' ≤ b && b ≤ ch '9' then some (b.toNat - 48)
  else if ch 'a' ≤ b && b ≤ ch 'f' then some (b.toNat - 87)
  else if ch 'A' ≤ b && b ≤ ch 'F' then some (b.toNat - 55)
  else none

/-- One octet of a dotted quad: decimal, at most 255, no leading zero. -/
def parseOctet (s : Bytes) : Option Nat :=
  if s.isEmpty || !s.all isDigit || (1 < s.length && s.head? == some (ch '0')) then none
  else
    let v := s.foldl (fun acc b => acc * 10 + digitVal b) 0
    if v ≤ 255 then some v else none

/-- `parseIPv4Fields`: exactly four octets. -/
def parseIPv4Fields (s : Bytes) : Option (List Nat) :=
  match split (ch '.') s with
  | [a, b, c, d] => do
    let a ← parseOctet a
    let b ← parseOctet b
    let c ← parseOctet c
    let d ← parseOctet d
    some [a, b, c, d]
  | _ => none

def ofOctets (os : List Nat) : Nat := os.foldl (fun acc o => acc * 256 + o) 0

/-- The leading hexadecimal digits of a group, refused beyond four. -/
def takeGroup (s : Bytes) : Option (Nat × Bytes) :=
  let digits := s.takeWhile fun b => (hexVal b).isSome
  if digits.isEmpty || 4 < digits.length then none
  else some (digits.foldl (fun acc b => acc * 16 + (hexVal b).getD 0) 0, s.drop digits.length)

/-- The group loop of `parseIPv6`.  `octets` are the bytes read so far,
    `ellipsis` the number of bytes before `::`; the result is both, once the
    whole string is used. -/
def parseGroups : Nat → Bytes → List Nat → Option Nat → Option (List Nat × Option Nat)
  | 0, s, octets, ellipsis => if s.isEmpty then some (octets, ellipsis) else none
  | fuel + 1, s, octets, ellipsis => do
    let (group, rest) ← takeGroup s
    match rest with
    | [] => some (octets ++ [group / 256, group % 256], ellipsis)
    | b :: more =>
      if b = ch '.' then
        -- an embedded IPv4 address takes the place of the last two groups
        if (ellipsis.isNone && octets.length ≠ 12) || 16 < octets.length + 4 then none
        else
          let quad ← parseIPv4Fields s
          some (octets ++ quad, ellipsis)
      else if b ≠ ch ':' then none
      else
        let octets := octets ++ [group / 256, group % 256]
        match more with
        | [] => none
        | c :: tail =>
          if c = ch ':' then
            if ellipsis.isSome then none
            else if tail.isEmpty then some (octets, some octets.length)
            else parseGroups fuel tail octets (some octets.length)
          else parseGroups fuel more octets ellipsis

/-- The sixteen bytes of an address, `::` expanded to at least one zero group. -/
def expandEllipsis (octets : List Nat) : Option Nat → Option (List Nat)
  | none => if octets.length = 16 then some octets else none
  | some at_ =>
    if octets.length < 16 then
      some (octets.take at_ ++ List.replicate (16 - octets.length) 0 ++ octets.drop at_)
    else none

def parseIPv6 (s : Bytes) : Option Addr :=
  let (body, zone, hasZone) := cut (ch '%') s
  if hasZone && zone.isEmpty then none
  else do
    let (octets, ellipsis) ←
      match body with
      | 58 :: 58 :: [] => some ([], some 0)
      | 58 :: 58 :: rest => parseGroups 8 rest [] (some 0)
      | _ => parseGroups 8 body [] none
    let bytes ← expandEllipsis octets ellipsis
    some (.v6 (BitVec.ofNat 128 (ofOctets bytes)) zone)

/-- `netip.ParseAddr(s)`: the first `.`, `:` or `%` decides the family. -/
def parseAddr (s : Bytes) : Option Addr :=
  match s.find? fun b => b == ch '.' || b == ch ':' || b == ch '%' with
  | some b =>
    if b = ch '.' then (parseIPv4Fields s).map fun os => .v4 (BitVec.ofNat 32 (ofOctets os))
    else if b = ch ':' then parseIPv6 s
    else none
  | none => none

/-- `netip.ParsePrefix(s)`: the length follows the last `/`, has neither sign
    nor leading zero, and fits the family; a zone is refused. -/
def parsePrefix (s : Bytes) : Option Prefix :=
  let bitsStr := (s.reverse.takeWhile (· ≠ ch '/')).reverse
  if ch '/' ∉ s then none
  else do
    let ip ← parseAddr (s.take (s.length - bitsStr.length - 1))
    if !ip.zone.isEmpty then none
    else if bitsStr.isEmpty || !bitsStr.all isDigit ||
        (1 < bitsStr.length && bitsStr.head? == some (ch '0')) then none
    else
      let bits := bitsStr.foldl (fun acc b => acc * 10 + digitVal b) 0
      if bits ≤ ip.bitLen then some (prefixFrom ip bits) else none

/-! ## Leading bits -/

/-- The two addresses agree on their first `n` bits. -/
def Agree {w : Nat} (n : Nat) (a b : BitVec w) : Prop := ∀ i < n, a.getMsbD i = b.getMsbD i

theorem eq_zero_iff_getMsbD {w : Nat} {x : BitVec w} : x = 0 ↔ ∀ i < w, x.getMsbD i = false := by
  constructor
  · rintro rfl i hi
    simp
  · intro h
    refine BitVec.eq_of_getMsbD_eq fun i hi => ?_
    rw [h i hi]
    simp

theorem xor_shift_eq_zero_iff {w n : Nat} {a b : BitVec w} (hn : n ≤ w) :
    (a ^^^ b) >>> (w - n) = 0 ↔ Agree n a b := by
  rw [eq_zero_iff_getMsbD]
  constructor
  · intro h i hi
    have hbit := h (i + (w - n)) (by omega)
    simpa [BitVec.getMsbD_ushiftRight, show i + (w - n) < w by omega] using hbit
  · intro h i hi
    rw [BitVec.getMsbD_ushiftRight]
    by_cases hlow : i < w - n
    · simp [hlow]
    · simp [h (i - (w - n)) (by omega)]

theorem xor_mask_eq_zero_iff {w n : Nat} {a b : BitVec w} (hn : n ≤ w) :
    (a ^^^ b) &&& (BitVec.allOnes w <<< (w - n)) = 0 ↔ Agree n a b := by
  have hmask : ∀ i, (BitVec.allOnes w <<< (w - n)).getMsbD i = decide (i < n) := by
    intro i
    simp [BitVec.getMsbD_shiftLeft, BitVec.getMsbD_allOnes]
    omega
  rw [eq_zero_iff_getMsbD]
  simp only [BitVec.getMsbD_and, hmask, BitVec.getMsbD_xor]
  constructor
  · intro h i hi
    simpa [hi] using h i (by omega)
  · intro h i hi
    by_cases hlow : i < n
    · simp [h i hlow]
    · simp [hlow]

/-- Addresses of one family that agree on `n` bits; a zone is not looked at. -/
def Addr.AgreesOn (n : Nat) : Addr → Addr → Prop
  | .v4 a, .v4 b => Agree n a b
  | .v6 a _, .v6 b _ => Agree n a b
  | _, _ => False

theorem Prefix.contains_iff {p : Prefix} {n : Nat} (hbits : p.bits = some n) (hn : n ≤ p.ip.bitLen) (a : Addr) :
    p.contains a = true ↔ a.AgreesOn n p.ip ∧ a.zone = [] := by
  obtain ⟨ip, bits⟩ := p
  cases hbits
  cases ip with
  | zero => cases a <;> simp [Prefix.contains, Addr.AgreesOn]
  | v4 b =>
    cases a with
    | zero => simp [Prefix.contains, Addr.AgreesOn]
    | v4 a =>
      have hagree : (a ^^^ b) >>> (32 - n) = 0 ↔ Agree n a b := xor_shift_eq_zero_iff hn
      change ((a ^^^ b) >>> (32 - n) == 0) = true ↔ Agree n a b ∧ [] = []
      rw [beq_iff_eq, hagree]
      simp
    | v6 a z => simp [Prefix.contains, Addr.AgreesOn]
  | v6 b _ =>
    cases a with
    | zero => simp [Prefix.contains, Addr.AgreesOn]
    | v4 a => simp [Prefix.contains, Addr.AgreesOn]
    | v6 a z =>
      have hagree : (a ^^^ b) &&& (BitVec.allOnes 128 <<< (128 - n)) = 0 ↔ Agree n a b := xor_mask_eq_zero_iff hn
      change (z.isEmpty && _ == 0) = true ↔ Agree n a b ∧ z = []
      rw [Bool.and_eq_true, beq_iff_eq, List.isEmpty_iff, hagree, and_comm]

/-! ## Mapped addresses -/

theorem Addr.is4In6_unmap (a : Addr) : a.unmap.is4In6 = false := by
  cases a with
  | zero => rfl
  | v4 b => rfl
  | v6 b z =>
    rw [Addr.unmap]
    split
    · rfl
    · rename_i hmapped
      exact Bool.eq_false_iff.mpr hmapped

theorem Addr.unmap_of_not_mapped {a : Addr} (h : a.is4In6 = false) : a.unmap = a := by
  cases a with
  | zero => rfl
  | v4 b => rfl
  | v6 b z =>
    rw [Addr.unmap, if_neg]
    exact Bool.eq_false_iff.mp h

theorem Addr.mapped_cases {a : Addr} (h : a.is4In6 = true) :
    ∃ b z, a = .v6 b z ∧ a.unmap = .v4 (b.extractLsb' 0 32) := by
  cases a with
  | zero => cases h
  | v4 b => cases h
  | v6 b z => exact ⟨b, z, rfl, if_pos h⟩

theorem Addr.isValid_unmap {a : Addr} (h : a.isValid = true) : a.unmap.isValid = true := by
  cases hmapped : a.is4In6 with
  | true =>
    obtain ⟨b, z, -, hb⟩ := Addr.mapped_cases hmapped
    rw [hb]
    rfl
  | false =>
    rw [Addr.unmap_of_not_mapped hmapped]
    exact h

theorem Addr.zone_unmap {a : Addr} (h : a.zone = []) : a.unmap.zone = [] := by
  cases hmapped : a.is4In6 with
  | true =>
    obtain ⟨b, z, -, hb⟩ := Addr.mapped_cases hmapped
    rw [hb]
    rfl
  | false =>
    rw [Addr.unmap_of_not_mapped hmapped]
    exact h

theorem Addr.agreesOn_self {a : Addr} (h : a.isValid = true) (n : Nat) : a.AgreesOn n a := by
  cases a with
  | zero => cases h
  | v4 b => exact fun _ _ => rfl
  | v6 b z => exact fun _ _ => rfl

theorem is4In6_of_agree {n : Nat} {a b : BitVec 128} {z z' : Bytes} (hn : 96 ≤ n) (h : Agree n a b)
    (hb : (Addr.v6 b z).is4In6 = true) : (Addr.v6 a z').is4In6 = true := by
  have hhigh : a.extractLsb' 32 96 = b.extractLsb' 32 96 := by
    refine BitVec.eq_of_getMsbD_eq fun i hi => ?_
    have hindex : 128 - (32 + 96 - i) = i := by omega
    rw [BitVec.getMsbD_extractLsb', BitVec.getMsbD_extractLsb', hindex, h i (by omega)]
  rw [Addr.is4In6] at hb ⊢
  rw [hhigh]
  exact hb

/-! ## What parses -/

theorem parseIPv6_eq_some {s : Bytes} {a : Addr} (h : parseIPv6 s = some a) : ∃ b z, a = .v6 b z := by
  unfold parseIPv6 at h
  dsimp only at h
  split at h
  · cases h
  · -- whatever the groups are, an address is made of them
    have hgroups (groups : Option (List Nat × Option Nat)) (zone : Bytes)
        (h : (groups.bind fun (octets, ellipsis) => (expandEllipsis octets ellipsis).bind fun bytes =>
          some (Addr.v6 (BitVec.ofNat 128 (ofOctets bytes)) zone)) = some a) : ∃ b z, a = .v6 b z := by
      obtain ⟨_, -, h⟩ := Option.bind_eq_some_iff.mp h
      obtain ⟨bytes, -, h⟩ := Option.bind_eq_some_iff.mp h
      cases h
      exact ⟨_, _, rfl⟩
    split at h <;> exact hgroups _ _ h

theorem parseAddr_eq_some {s : Bytes} {a : Addr} (h : parseAddr s = some a) :
    (∃ os, parseIPv4Fields s = some os ∧ a = .v4 (BitVec.ofNat 32 (ofOctets os))) ∨ ∃ b z, a = .v6 b z := by
  unfold parseAddr at h
  split at h
  · split at h
    · obtain ⟨os, hos, rfl⟩ := Option.map_eq_some_iff.mp h
      exact .inl ⟨os, hos, rfl⟩
    · split at h
      · exact .inr (parseIPv6_eq_some h)
      · cases h
  · cases h

theorem isValid_of_parseAddr {s : Bytes} {a : Addr} (h : parseAddr s = some a) : a.isValid = true := by
  rcases parseAddr_eq_some h with ⟨_, -, rfl⟩ | ⟨_, _, rfl⟩ <;> rfl

theorem prefixFrom_eq {a : Addr} {n : Nat} (hvalid : a.isValid = true) (hzone : a.zone = []) (hn : n ≤ a.bitLen) :
    prefixFrom a n = ⟨a, some n⟩ := by
  have hself : a.withoutZone = a := by
    cases a with
    | v6 b z => exact congrArg (Addr.v6 b) hzone.symm
    | _ => rfl
  rw [prefixFrom, hself, hvalid, decide_eq_true hn]
  rfl

theorem parsePrefix_eq_some {s : Bytes} {p : Prefix} (h : parsePrefix s = some p) :
    ∃ text a n, parseAddr text = some a ∧ a.zone = [] ∧ n ≤ a.bitLen ∧ p = ⟨a, some n⟩ := by
  unfold parsePrefix at h
  dsimp only at h
  split at h
  · cases h
  · obtain ⟨a, ha, h⟩ := Option.bind_eq_some_iff.mp h
    split at h
    · cases h
    · rename_i hzone
      split at h
      · cases h
      · split at h
        · rename_i hn
          cases h
          have hnone : a.zone = [] := by simpa using hzone
          exact ⟨_, a, _, ha, hnone, hn, prefixFrom_eq (isValid_of_parseAddr ha) hnone hn⟩
        · cases h

end Go
