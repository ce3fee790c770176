import S3Gateway.Sigv4.Verify

/-! # How long a presigned request is valid

The number of seconds in `X-Amz-Expires` is multiplied by `time.Second` before it is compared
with the maximum, and the product of two `int64` values wraps. -/

namespace S3Gateway.Sigv4

open Go S3err Fallible

/-! ## The checks -/

/-- What the checks of `verifyPresignedRequest` ask of the lifetime, the signing time and the
    clock. -/
def Timely (expires : Bytes) (t now : Int) : Prop :=
  ∃ e, parseInt 10 64 expires = some e ∧ 1 ≤ e ∧ presignLifetime e ≤ maxPresignExpires ∧
    now ≤ t + presignLifetime e ∧ t ≤ now + maxClockSkew

theorem presignDate_eq_ok_iff {v : Verifier} {s : KeyScope} {query : Values} {t : Time}
    (hdate : v.parseAmzDate (query.get (str "X-Amz-Date")) = some t) (hscope : v.scopeDate t = s.date) :
    presignDate v s query = .ok t ↔ Timely (query.get (str "X-Amz-Expires")) t v.now := by
  simp only [presignDate, bind_eq_ok, require_eq_ok, orError_eq_ok, hdate, Option.filter_eq_some_iff,
    decide_eq_true_eq]
  constructor
  · rintro ⟨_, ⟨⟩, _, -, e, ⟨hparse, hpositive⟩, _, hweek, _, hlive, _, hbegun, -⟩
    exact ⟨e, hparse, hpositive, hweek, hlive, hbegun⟩
  · rintro ⟨e, hparse, hpositive, hweek, hlive, hbegun⟩
    exact ⟨t, rfl, (), hscope, e, ⟨hparse, hpositive⟩, (), hweek, (), hlive, (), hbegun, rfl⟩

/-! ## What they should ask -/

/-- The lifetime is between a second and a week, and the clock between a quarter of an hour
    before the signing time and its end. -/
def InWindow (expires : Bytes) (t now : Int) : Prop :=
  ∃ e, parseInt 10 64 expires = some e ∧ 1 ≤ e ∧ e ≤ 604800 ∧ t - 15 * minute ≤ now ∧ now ≤ t + e * second

/-- More than a week, which wraps to a lifetime that has not ended. -/
def WrappedWindow (expires : Bytes) (t now : Int) : Prop :=
  ∃ e, parseInt 10 64 expires = some e ∧ 604800 < e ∧ presignLifetime e ≤ maxPresignExpires ∧
    t - 15 * minute ≤ now ∧ now ≤ t + presignLifetime e

theorem maxPresignExpires_eq : maxPresignExpires = 604800 * second := by decide

theorem presignLifetime_eq {expires : Int} (h : 1 ≤ expires ∧ expires ≤ 604800) :
    presignLifetime expires = expires * second := by
  have hsecond : second = 1000000000 := by decide
  unfold presignLifetime
  rw [hsecond]
  exact Int.bmod_eq_of_le (by omega) (by omega)

theorem timely_iff {expires : Bytes} {t now : Int} :
    Timely expires t now ↔ InWindow expires t now ∨ WrappedWindow expires t now := by
  have hskew : maxClockSkew = 15 * minute := rfl
  constructor
  · rintro ⟨e, hparse, hpositive, hweek, hlive, hbegun⟩
    rw [hskew] at hbegun
    by_cases hshort : e ≤ 604800
    · rw [presignLifetime_eq ⟨hpositive, hshort⟩] at hlive
      exact .inl ⟨e, hparse, hpositive, hshort, by omega, hlive⟩
    · exact .inr ⟨e, hparse, by omega, hweek, by omega, hlive⟩
  · rintro (⟨e, hparse, hpositive, hshort, hbegun, hlive⟩ | ⟨e, hparse, hlong, hweek, hbegun, hlive⟩)
    · rw [← presignLifetime_eq ⟨hpositive, hshort⟩] at hlive
      refine ⟨e, hparse, hpositive, ?_, hlive, by omega⟩
      rw [presignLifetime_eq ⟨hpositive, hshort⟩, maxPresignExpires_eq]
      exact Int.mul_le_mul_of_nonneg_right hshort (by decide)
    · exact ⟨e, hparse, by omega, hweek, hlive, by omega⟩

theorem not_inWindow_of_wrapped {expires : Bytes} {t now : Int} (h : WrappedWindow expires t now) :
    ¬InWindow expires t now := by
  rintro ⟨e, hparse, -, hshort, -⟩
  obtain ⟨e', hparse', hlong, -⟩ := h
  cases hparse.symm.trans hparse'
  omega

/-- The checks pass in the window and nowhere else exactly when the lifetime does not wrap
    into it; for all times at once, when it wraps to less than a quarter of an hour back or to
    more than a week. -/
theorem presignDate_inWindow_iff {v : Verifier} {s : KeyScope} {query : Values} {t : Time}
    (hdate : v.parseAmzDate (query.get (str "X-Amz-Date")) = some t) (hscope : v.scopeDate t = s.date) :
    ((presignDate v s query = .ok t ↔ InWindow (query.get (str "X-Amz-Expires")) t v.now) ↔
        ¬WrappedWindow (query.get (str "X-Amz-Expires")) t v.now) ∧
      ∀ expires, (∀ t now, Timely expires t now ↔ InWindow expires t now) ↔
        ¬∃ e, parseInt 10 64 expires = some e ∧ 604800 < e ∧ -(15 * minute) ≤ presignLifetime e ∧
          presignLifetime e ≤ maxPresignExpires := by
  have hexact (expires : Bytes) (t now : Int) :
      (Timely expires t now ↔ InWindow expires t now) ↔ ¬WrappedWindow expires t now := by
    rw [timely_iff]
    constructor
    · intro hiff hwrapped
      exact not_inWindow_of_wrapped hwrapped (hiff.mp (.inr hwrapped))
    · intro hnot
      exact or_iff_left hnot
  refine ⟨?_, fun expires => ?_⟩
  · rw [presignDate_eq_ok_iff hdate hscope]
    exact hexact _ _ _
  · simp only [hexact]
    constructor
    · rintro hnever ⟨e, hparse, hlong, hskew, hweek⟩
      exact hnever 0 (-(15 * minute)) ⟨e, hparse, hlong, hweek, by omega, by omega⟩
    · rintro hnone t now ⟨e, hparse, hlong, hweek, hbegun, hlive⟩
      exact hnone ⟨e, hparse, hlong, by omega, hweek⟩

/-! ## A lifetime that wraps -/

/-- A verifier of which only the clock and the dates matter. -/
def clockAt (now : Time) : Verifier where
  region := []
  now
  crypto := { sha256 := id, hmac := fun _ data => data }
  lookup _ _ := .error .unknownKey
  deriveKey _ _ _ _ := .error .unknownKey
  parseAmzDate := parseAmzDate
  scopeDate := formatScopeDate

def leapNoon : Time := (parseAmzDate (str "20240229T120000Z")).getD 0

def leapScope : KeyScope := { akid := str "AK", date := str "20240229", region := str "us-east-1" }

def expiringQuery (expires : Bytes) : Values :=
  [(str "X-Amz-Date", str "20240229T120000Z"), (str "X-Amz-Expires", expires)]

theorem leapNoon_signed (expires : Bytes) (now : Time) :
    (clockAt now).parseAmzDate ((expiringQuery expires).get (str "X-Amz-Date")) = some leapNoon ∧
      (clockAt now).scopeDate leapNoon = leapScope.date := by
  have hdate : parseAmzDate (str "20240229T120000Z") = some leapNoon := by decide +kernel
  have hscope : formatScopeDate leapNoon = leapScope.date := by decide +kernel
  exact ⟨hdate, hscope⟩

/-- 585 years, which wrap to an hour. -/
theorem longLifetime_accepted :
    presignDate (clockAt leapNoon) leapScope (expiringQuery (str "18446747674")) = .ok leapNoon ∧
      ¬InWindow ((expiringQuery (str "18446747674")).get (str "X-Amz-Expires")) leapNoon leapNoon := by
  obtain ⟨hdate, hscope⟩ := leapNoon_signed (str "18446747674") leapNoon
  have hparse : parseInt 10 64 (str "18446747674") = some 18446747674 := by decide +kernel
  have hwrapped : WrappedWindow (str "18446747674") leapNoon leapNoon :=
    ⟨_, hparse, by decide, by decide +kernel, by decide +kernel, by decide +kernel⟩
  refine ⟨(presignDate_eq_ok_iff hdate hscope).mpr (timely_iff.mpr (.inr hwrapped)), ?_⟩
  exact not_inWindow_of_wrapped hwrapped

theorem hourLifetime_accepted :
    presignDate (clockAt leapNoon) leapScope (expiringQuery (str "3600")) = .ok leapNoon := by
  obtain ⟨hdate, hscope⟩ := leapNoon_signed (str "3600") leapNoon
  have hparse : parseInt 10 64 (str "3600") = some 3600 := by decide +kernel
  have hshort : ¬WrappedWindow (str "3600") leapNoon leapNoon := by
    rintro ⟨e, hparse', hlong, -⟩
    cases hparse.symm.trans hparse'
    omega
  refine ((presignDate_inWindow_iff hdate hscope).1.mpr hshort).mpr ?_
  exact ⟨3600, hparse, by decide, by decide, by decide +kernel, by decide +kernel⟩

end S3Gateway.Sigv4
