import Mathlib.Data.List.Basic
import Mathlib.Data.List.Infix

/-! # Go strings as byte lists

A Go string is a sequence of bytes with no promise about their encoding, so the
model's strings are `List UInt8`.  This module holds the part of the `strings`
package the verified program uses on single-byte separators, together with the
lemmas that characterise each operation once, so that later proofs never unfold
them. -/

namespace Go

abbrev Bytes := List UInt8

instance : LawfulBEq Bytes := inferInstance

/-- A string constant of the source, as the bytes of its UTF-8 form. -/
def str (s : String) : Bytes := s.toList.flatMap String.utf8EncodeChar

abbrev ch (c : Char) : UInt8 := c.toUInt8

def lowerByte (b : UInt8) : UInt8 := if ch 'A' ≤ b && b ≤ ch 'Z' then b + 32 else b

theorem forall_byte {p : UInt8 → Prop} (h : ∀ n : Fin 256, p (.ofFin n)) (b : UInt8) : p b :=
  h b.toFin

/-- A fact about the bytes of a string, for the evaluation of it: a search through the string,
    not through all bytes. -/
theorem forall_mem_of_all {p : UInt8 → Prop} [DecidablePred p] {s : Bytes} (h : (s.all fun b => p b) = true) :
    ∀ b ∈ s, p b := by
  simpa using h

/-! ## Prefixes and suffixes -/

def hasPrefix (s p : Bytes) : Bool := p.isPrefixOf s

def hasSuffix (s p : Bytes) : Bool := p.isSuffixOf s

/-- `strings.CutPrefix(s, p)`; `none` is the `false` of the Go result. -/
def cutPrefix (s p : Bytes) : Option Bytes :=
  if hasPrefix s p then some (s.drop p.length) else none

def cutSuffix (s p : Bytes) : Option Bytes :=
  if hasSuffix s p then some (s.take (s.length - p.length)) else none

def trimPrefix (s p : Bytes) : Bytes := (cutPrefix s p).getD s

def trimSuffix (s p : Bytes) : Bytes := (cutSuffix s p).getD s

theorem hasPrefix_iff {s p : Bytes} : hasPrefix s p = true ↔ ∃ t, s = p ++ t := by
  rw [hasPrefix, List.isPrefixOf_iff_prefix]
  exact ⟨fun ⟨t, h⟩ => ⟨t, h.symm⟩, fun ⟨t, h⟩ => ⟨t, h.symm⟩⟩

@[simp] theorem hasPrefix_append (p t : Bytes) : hasPrefix (p ++ t) p = true :=
  hasPrefix_iff.mpr ⟨t, rfl⟩

@[simp] theorem cutPrefix_append (p t : Bytes) : cutPrefix (p ++ t) p = some t := by
  simp [cutPrefix]

theorem cutPrefix_eq_some {s p t : Bytes} : cutPrefix s p = some t ↔ s = p ++ t := by
  constructor
  · intro h
    unfold cutPrefix at h
    split at h
    · rename_i hp
      obtain ⟨u, rfl⟩ := hasPrefix_iff.mp hp
      simpa using h
    · cases h
  · rintro rfl
    simp

/-! ## Cut, Split and Join on one byte -/

/-- `strings.Cut(s, sep)` for a one-byte separator: what is before the first
    separator, what is after it, and whether there is one. -/
def cut (sep : UInt8) : Bytes → Bytes × Bytes × Bool
  | [] => ([], [], false)
  | b :: s =>
    if b = sep then ([], s, true)
    else
      let (before, after, found) := cut sep s
      (b :: before, after, found)

def contains (s sub : Bytes) : Bool := s.tails.any (hasPrefix · sub)

/-- `strings.Split(s, sep)` for a one-byte separator. -/
def split (sep : UInt8) (s : Bytes) : List Bytes := s.splitOn sep

def join (elems : List Bytes) (sep : Bytes) : Bytes := sep.intercalate elems

/-- The scan of `ReplaceAll`; `skip` counts the bytes of a match still to be passed
    over. -/
def replaceScan (old new : Bytes) : Nat → Bytes → Bytes
  | _, [] => []
  | skip + 1, _ :: s => replaceScan old new skip s
  | 0, b :: s =>
    if hasPrefix (b :: s) old then new ++ replaceScan old new (old.length - 1) s
    else b :: replaceScan old new 0 s

/-- `strings.ReplaceAll(s, old, new)` for a nonempty `old`. -/
def replaceAll (s old new : Bytes) : Bytes := replaceScan old new 0 s

theorem replaceAll_byte (old : UInt8) (new s : Bytes) :
    replaceAll s [old] new = s.flatMap fun b => if b = old then new else [b] := by
  unfold replaceAll
  induction s with
  | nil => rfl
  | cons b s ih =>
    have hpre : hasPrefix (b :: s) [old] = decide (b = old) := by
      by_cases hb : b = old
      · simp [hasPrefix, List.isPrefixOf, hb]
      · simp [hasPrefix, List.isPrefixOf, hb, Ne.symm hb]
    rw [replaceScan, List.flatMap_cons, hpre]
    by_cases hb : b = old
    · simpa [hb] using ih
    · simpa [hb] using ih

theorem cut_of_not_mem {sep : UInt8} {s : Bytes} (h : sep ∉ s) : cut sep s = (s, [], false) := by
  induction s with
  | nil => rfl
  | cons b s ih =>
    have hb : b ≠ sep := fun e => h (e ▸ List.mem_cons_self)
    have hs : sep ∉ s := fun m => h (List.mem_cons_of_mem _ m)
    simp [cut, hb, ih hs]

theorem cut_append {sep : UInt8} {a b : Bytes} (h : sep ∉ a) :
    cut sep (a ++ sep :: b) = (a, b, true) := by
  induction a with
  | nil => simp [cut]
  | cons x a ih =>
    have hx : x ≠ sep := fun e => h (e ▸ List.mem_cons_self)
    have ha : sep ∉ a := fun m => h (List.mem_cons_of_mem _ m)
    simp [cut, hx, ih ha]

/-- The two shapes a `Cut` can have: the separator is absent and everything is
    "before", or the string splits at its first separator. -/
theorem cut_cases (sep : UInt8) (s : Bytes) :
    (sep ∉ s ∧ cut sep s = (s, [], false)) ∨
      ∃ a b, sep ∉ a ∧ s = a ++ sep :: b ∧ cut sep s = (a, b, true) := by
  by_cases h : sep ∈ s
  · obtain ⟨a, b, rfl, ha⟩ := List.eq_append_cons_of_mem h
    exact .inr ⟨a, b, ha, rfl, cut_append ha⟩
  · exact .inl ⟨h, cut_of_not_mem h⟩

end Go
