import Mathlib.Data.Nat.Digits.Lemmas
import S3Gateway.Go.Netip

/-! # Integers in strings

`strconv.ParseInt` for an explicit base, where neither a base prefix nor an
underscore is accepted. -/

namespace Go

/-- The digits of `strconv.ParseUint(s, base, 64)`, accumulated from the left. -/
def parseDigits (base : Nat) : Nat → Bytes → Option Nat
  | n, [] => some n
  | n, b :: rest => do
    let d ← if isDigit b || base = 16 then hexVal b else none
    parseDigits base (n * base + d) rest

/-- `strconv.ParseInt(s, base, bitSize)` for base 10 or 16; `none` is a syntax or
    range error. -/
def parseInt (base bitSize : Nat) (s : Bytes) : Option Int := do
  let (negative, digits) :=
    match s with
    | b :: rest => if b = ch '-' then (true, rest) else if b = ch '+' then (false, rest) else (false, s)
    | [] => (false, [])
  if digits = [] then none
  else do
    let n ← parseDigits base 0 digits
    if negative then if n ≤ 2 ^ (bitSize - 1) then some (-(n : Int)) else none
    else if n < 2 ^ (bitSize - 1) then some n else none

theorem parseInt_lt {base bitSize : Nat} {s : Bytes} {n : Int} (h : parseInt base bitSize s = some n) :
    n < 2 ^ (bitSize - 1) := by
  have hpos : (0 : Int) < 2 ^ (bitSize - 1) := by positivity
  unfold parseInt at h
  generalize (match s with
    | b :: rest => if b = ch '-' then (true, rest) else if b = ch '+' then (false, rest) else (false, s)
    | [] => (false, [])) = parts at h
  dsimp only at h
  split at h
  · cases h
  · obtain ⟨m, -, h⟩ := Option.bind_eq_some_iff.mp h
    split at h
    · split at h
      · cases h
        omega
      · cases h
    · split at h
      · rename_i hlt
        cases h
        exact_mod_cast hlt
      · cases h

def formatNat (n : Nat) : Bytes :=
  if n = 0 then str "0" else (Nat.digits 10 n).reverse.map fun d => ch '0' + d.toUInt8

def formatInt (n : Int) : Bytes :=
  if n < 0 then ch '-' :: formatNat n.natAbs else formatNat n.natAbs

theorem parseDigits_append (base n : Nat) (s t : Bytes) :
    parseDigits base n (s ++ t) = (parseDigits base n s).bind (parseDigits base · t) := by
  induction s generalizing n with
  | nil => rfl
  | cons b s ih =>
    simp only [List.cons_append, parseDigits]
    split
    · cases hexVal b with
      | none => rfl
      | some d => exact ih _
    · rfl

/-- Digits written from the highest on are read back, whichever signs stand for them. -/
theorem parseDigits_digits {base : Nat} {digit : Nat → UInt8}
    (hdigit : ∀ d < base, (isDigit (digit d) || base = 16) = true ∧ hexVal (digit d) = some d)
    {digits : List Nat} (h : ∀ d ∈ digits, d < base) :
    parseDigits base 0 (digits.reverse.map digit) = some (Nat.ofDigits base digits) := by
  induction digits with
  | nil => rfl
  | cons d digits ih =>
    rw [List.forall_mem_cons] at h
    obtain ⟨hallowed, hval⟩ := hdigit d h.1
    rw [List.reverse_cons, List.map_append, parseDigits_append, ih h.2, Nat.ofDigits_cons]
    simp [parseDigits, hallowed, hval, Nat.mul_comm, Nat.add_comm]

theorem decimalDigit : ∀ d < 10, isDigit (ch '0' + d.toUInt8) = true ∧
    hexVal (ch '0' + d.toUInt8) = some d := by decide

theorem isDigit_of_mem_formatNat {n : Nat} {b : UInt8} (h : b ∈ formatNat n) : isDigit b = true := by
  unfold formatNat at h
  split at h
  · rw [show str "0" = [ch '0'] by decide, List.mem_singleton] at h
    rw [h]
    decide
  · obtain ⟨d, hd, rfl⟩ := List.mem_map.mp h
    exact (decimalDigit d (Nat.digits_lt_base (by decide) (List.mem_reverse.mp hd))).1

theorem parseDigits_formatNat (n : Nat) : parseDigits 10 0 (formatNat n) = some n := by
  unfold formatNat
  split
  · rename_i hzero
    rw [hzero]
    decide
  · rw [parseDigits_digits (fun d hd => by simpa using decimalDigit d hd)
      fun d hd => Nat.digits_lt_base (by decide) hd, Nat.ofDigits_digits]

theorem newline_not_mem_formatInt (n : Int) : ch '\n' ∉ formatInt n := by
  have hnat : ∀ m, ch '\n' ∉ formatNat m := fun m hmem =>
    absurd (isDigit_of_mem_formatNat hmem) (by decide)
  unfold formatInt
  split
  · intro hmem
    rcases List.mem_cons.mp hmem with heq | hmem
    · exact absurd heq (by decide)
    · exact hnat _ hmem
  · exact hnat _

end Go
