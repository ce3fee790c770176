import Mathlib.Algebra.GroupWithZero.Nat
import Mathlib.Data.List.GetD

/-! # The Gregorian calendar

Extended to all years, with days counted from the first of year 1.  A day is found by its
year, then by its place among the months; going back adds up what was taken off. -/

namespace Gregorian

def isLeap (y : Int) : Bool := y % 4 == 0 && (y % 100 != 0 || y % 400 == 0)

/-- The days of the years from 1 to `y`, without `y`. -/
def daysBeforeYear (y : Int) : Int := 365 * (y - 1) + (y - 1) / 4 - (y - 1) / 100 + (y - 1) / 400

def yearLength (y : Int) : Nat := if isLeap y then 366 else 365

def monthLengths (y : Int) : List Nat :=
  [31, if isLeap y then 29 else 28, 31, 30, 31, 30, 31, 31, 30, 31, 30, 31]

/-- The days of a month counted from 1, none for a month there is not. -/
def daysIn (y : Int) (month : Nat) : Nat := (monthLengths y).getD (month - 1) 0

/-- A year, a month and a day of it, counted from 1. -/
structure Date where
  year : Int
  month : Nat
  day : Nat
deriving DecidableEq

def Date.toDays (d : Date) : Int :=
  daysBeforeYear d.year + ((monthLengths d.year).take (d.month - 1)).sum + (d.day - 1 : Nat)

/-! ## Years -/

/-- The year of a day and its place in it: by cycles of 400, 100 and 4 years, of which the
    last of a longer one is a day longer. -/
def yearOf (n : Int) : Int × Nat :=
  let n₄₀₀ := n / 146097
  let d := n % 146097
  let n₁₀₀ := min 3 (d / 36524)
  let d := d - 36524 * n₁₀₀
  let n₄ := d / 1461
  let d := d % 1461
  let n₁ := min 3 (d / 365)
  (400 * n₄₀₀ + 100 * n₁₀₀ + 4 * n₄ + n₁ + 1, (d - 365 * n₁).toNat)

/-- What is taken off a day: whole cycles, and at most a leap year's last day is left. -/
theorem yearOf_cycles (n : Int) : ∃ n₄₀₀ n₁₀₀ n₄ n₁ : Int, ∃ d : Nat,
    yearOf n = (400 * n₄₀₀ + 100 * n₁₀₀ + 4 * n₄ + n₁ + 1, d) ∧
      n = 146097 * n₄₀₀ + 36524 * n₁₀₀ + 1461 * n₄ + 365 * n₁ + d ∧
      (0 ≤ n₁₀₀ ∧ n₁₀₀ ≤ 3) ∧ (0 ≤ n₄ ∧ n₄ ≤ 24) ∧ (0 ≤ n₁ ∧ n₁ ≤ 3) ∧
      (d < 365 ∨ d = 365 ∧ n₁ = 3 ∧ (n₄ = 24 → n₁₀₀ = 3)) := by
  refine ⟨_, _, _, _, _, rfl, ?_⟩
  omega

theorem yearLength_pos (y : Int) : 365 ≤ yearLength y := by
  unfold yearLength
  split <;> omega

theorem yearOf_spec (n : Int) :
    daysBeforeYear (yearOf n).1 + (yearOf n).2 = n ∧ (yearOf n).2 < yearLength (yearOf n).1 := by
  obtain ⟨n₄₀₀, n₁₀₀, n₄, n₁, d, hyear, hn, hcentury, hquarter, hone, hlast⟩ := yearOf_cycles n
  rw [hyear]
  constructor
  · unfold daysBeforeYear
    omega
  · rcases hlast with hshort | ⟨rfl, rfl, hlong⟩
    · exact Nat.lt_of_lt_of_le hshort (yearLength_pos _)
    · have hleap : isLeap (400 * n₄₀₀ + 100 * n₁₀₀ + 4 * n₄ + 3 + 1) = true := by
        simp only [isLeap, Bool.and_eq_true, Bool.or_eq_true, beq_iff_eq, bne_iff_ne]
        omega
      rw [yearLength, hleap]
      exact Nat.lt_succ_self 365

/-! ## Months -/

/-- The month a day falls in, and its place in it, both counted from 0. -/
def monthOf : List Nat → Nat → Nat × Nat
  | [], d => (0, d)
  | length :: lengths, d =>
    if d < length then (0, d)
    else ((monthOf lengths (d - length)).1 + 1, (monthOf lengths (d - length)).2)

theorem monthOf_spec {lengths : List Nat} {d : Nat} (h : d < lengths.sum) :
    (lengths.take (monthOf lengths d).1).sum + (monthOf lengths d).2 = d ∧
      (monthOf lengths d).2 < lengths.getD (monthOf lengths d).1 0 := by
  induction lengths generalizing d with
  | nil => cases h
  | cons length lengths ih =>
    rw [List.sum_cons] at h
    by_cases hin : d < length
    · rw [monthOf, if_pos hin]
      exact ⟨Nat.zero_add d, hin⟩
    · rw [monthOf, if_neg hin]
      obtain ⟨hsum, hlt⟩ := ih (d := d - length) (by omega)
      refine ⟨?_, hlt⟩
      rw [List.take_succ_cons, List.sum_cons]
      omega

theorem sum_monthLengths (y : Int) : (monthLengths y).sum = yearLength y := by
  unfold monthLengths yearLength
  cases isLeap y <;> rfl

/-! ## Dates -/

def Date.ofDays (n : Int) : Date :=
  let (year, yday) := yearOf n
  let (month, day) := monthOf (monthLengths year) yday
  { year, month := month + 1, day := day + 1 }

theorem Date.toDays_ofDays (n : Int) : (Date.ofDays n).toDays = n := by
  obtain ⟨hyear, hyday⟩ := yearOf_spec n
  rw [← sum_monthLengths] at hyday
  have hmonth := (monthOf_spec hyday).1
  simp only [Date.toDays, Date.ofDays, Nat.add_sub_cancel]
  omega

theorem Date.ofDays_valid (n : Int) : 1 ≤ (Date.ofDays n).month ∧ (Date.ofDays n).month ≤ 12 ∧
    1 ≤ (Date.ofDays n).day ∧ (Date.ofDays n).day ≤ daysIn (Date.ofDays n).year (Date.ofDays n).month := by
  obtain ⟨-, hyday⟩ := yearOf_spec n
  rw [← sum_monthLengths] at hyday
  have hday := (monthOf_spec hyday).2
  refine ⟨Nat.le_add_left 1 _, ?_, Nat.le_add_left 1 _, ?_⟩
  · -- beyond the last month there are no days
    rcases Nat.lt_or_ge (monthOf (monthLengths (yearOf n).1) (yearOf n).2).1 12 with hlt | hlate
    · exact hlt
    · rw [List.getD_eq_default _ _ hlate] at hday
      cases hday
  · simp only [Date.ofDays, daysIn, Nat.add_sub_cancel]
    exact hday

theorem daysIn_le (y : Int) (month : Nat) : daysIn y month ≤ 31 := by
  have hlengths : ∀ length ∈ monthLengths y, length ≤ 31 := by
    unfold monthLengths
    cases isLeap y <;> decide
  unfold daysIn
  rcases Nat.lt_or_ge (month - 1) (monthLengths y).length with hlt | hlate
  · rw [List.getD_eq_getElem _ _ hlt]
    exact hlengths _ (List.getElem_mem hlt)
  · rw [List.getD_eq_default _ _ hlate]
    exact Nat.zero_le 31

end Gregorian
