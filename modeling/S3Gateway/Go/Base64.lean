import S3Gateway.Go.Bytes

/-! # `base64.StdEncoding` -/

namespace Go

def base64Digit (d : Nat) : UInt8 :=
  if d < 26 then ch 'A' + UInt8.ofNat d
  else if d < 52 then ch 'a' + UInt8.ofNat (d - 26)
  else if d < 62 then ch '0' + UInt8.ofNat (d - 52)
  else if d = 62 then ch '+'
  else ch '/'

/-- `base64.StdEncoding.EncodeToString(b)`. -/
def base64Encode : Bytes → Bytes
  | [] => []
  | [a] => [base64Digit (a.toNat / 4), base64Digit (a.toNat % 4 * 16), ch '=', ch '=']
  | [a, b] =>
    [base64Digit (a.toNat / 4), base64Digit (a.toNat % 4 * 16 + b.toNat / 16),
      base64Digit (b.toNat % 16 * 4), ch '=']
  | a :: b :: c :: rest =>
    base64Digit (a.toNat / 4) :: base64Digit (a.toNat % 4 * 16 + b.toNat / 16) ::
      base64Digit (b.toNat % 16 * 4 + c.toNat / 64) :: base64Digit (c.toNat % 64) :: base64Encode rest

example : base64Encode (str "light w") = str "bGlnaHQgdw==" := by decide

def base64Value (c : UInt8) : Option Nat :=
  if ch 'A' ≤ c ∧ c ≤ ch 'Z' then some (c - ch 'A').toNat
  else if ch 'a' ≤ c ∧ c ≤ ch 'z' then some ((c - ch 'a').toNat + 26)
  else if ch '0' ≤ c ∧ c ≤ ch '9' then some ((c - ch '0').toNat + 52)
  else if c = ch '+' then some 62
  else if c = ch '/' then some 63
  else none

/-- The groups of four digits, of which the last may be padded. -/
def base64Groups : Bytes → Option Bytes
  | [] => some []
  | a :: b :: c :: d :: rest => do
    let x ← base64Value a
    let y ← base64Value b
    if c = ch '=' then
      if d = ch '=' ∧ rest = [] then some [(x * 4 + y / 16).toUInt8] else none
    else
      let z ← base64Value c
      if d = ch '=' then
        if rest = [] then some [(x * 4 + y / 16).toUInt8, (y % 16 * 16 + z / 4).toUInt8] else none
      else
        let w ← base64Value d
        let tail ← base64Groups rest
        some ((x * 4 + y / 16).toUInt8 :: (y % 16 * 16 + z / 4).toUInt8 :: (z % 4 * 64 + w).toUInt8 :: tail)
  | _ => none

/-- `base64.StdEncoding.DecodeString(s)`, which skips the ends of lines. -/
def base64Decode (s : Bytes) : Option Bytes := base64Groups (s.filter fun b => b ≠ ch '\n' ∧ b ≠ ch '\r')

theorem length_base64Encode (b : Bytes) : (base64Encode b).length = 4 * ((b.length + 2) / 3) := by
  fun_induction base64Encode b with
  | case1 => rfl
  | case2 => simp
  | case3 => simp
  | case4 a b c rest ih =>
    simp only [List.length_cons, ih]
    omega

theorem mem_base64Encode {b : Bytes} {x : UInt8} (h : x ∈ base64Encode b) :
    x = ch '=' ∨ ∃ d, x = base64Digit d := by
  fun_induction base64Encode b with
  | case1 => cases h
  | case2 a =>
    simp only [List.mem_cons, List.not_mem_nil, or_false] at h
    rcases h with h | h | h | h
    · exact .inr ⟨_, h⟩
    · exact .inr ⟨_, h⟩
    · exact .inl h
    · exact .inl h
  | case3 a b =>
    simp only [List.mem_cons, List.not_mem_nil, or_false] at h
    rcases h with h | h | h | h
    · exact .inr ⟨_, h⟩
    · exact .inr ⟨_, h⟩
    · exact .inr ⟨_, h⟩
    · exact .inl h
  | case4 a b c rest ih =>
    simp only [List.mem_cons] at h
    rcases h with h | h | h | h | h
    · exact .inr ⟨_, h⟩
    · exact .inr ⟨_, h⟩
    · exact .inr ⟨_, h⟩
    · exact .inr ⟨_, h⟩
    · exact ih h

end Go
