import S3Gateway.Go.Strconv
import S3Gateway.Library.Gregorian

/-! # Instants and dates

Instants and durations are counted in nanoseconds.  Subtracting two instants saturates in Go
beyond 290 years, which no comparison made here can tell apart from the exact difference.

`Time.Format` in UTC is here for the layouts of signatures, of the S3 documents, of RFC 3339
and of HTTP, and `time.Parse` for the `X-Amz-Date` layout `20060102T150405Z`. -/

namespace Go

open Gregorian (Date daysIn)

/-- `time.Time`, counted from the first day of year 1 as the zero `time.Time` is. -/
abbrev Time := Int

def second : Int := 1000000000
def minute : Int := 60 * second
def hour : Int := 60 * minute
def day : Int := 24 * hour

/-- `t.Date()`. -/
def dateOf (t : Time) : Date := .ofDays (t / day)

/-- `t.Clock()`: hour, minute and second. -/
def clockOf (t : Time) : Nat × Nat × Nat :=
  let secs := (t % day / second).toNat
  (secs / 3600, secs % 3600 / 60, secs % 60)

/-! ## Formatting -/

/-- `appendInt(nil, x, width)`: at least `width` digits. -/
def appendInt (x : Int) (width : Nat) : Bytes :=
  let digits := formatNat x.natAbs
  (if x < 0 then str "-" else []) ++ (List.replicate (width - digits.length) (ch '0') ++ digits)

/-- `t.Format("20060102")`. -/
def formatScopeDate (t : Time) : Bytes :=
  let date := dateOf t
  appendInt date.year 4 ++ (appendInt date.month 2 ++ appendInt date.day 2)

/-- `t.Format("20060102T150405Z")`. -/
def formatAmzDate (t : Time) : Bytes :=
  let date := dateOf t
  let (h, m, s) := clockOf t
  appendInt date.year 4 ++ (appendInt date.month 2 ++ (appendInt date.day 2 ++ (ch 'T' ::
    (appendInt h 2 ++ (appendInt m 2 ++ (appendInt s 2 ++ str "Z"))))))

/-- The milliseconds of a second that have passed. -/
def millisOf (t : Time) : Nat := (t % second / 1000000).toNat

/-- `t.Format("15:04:05")`. -/
def formatClock (t : Time) : Bytes :=
  let (h, m, s) := clockOf t
  appendInt h 2 ++ (ch ':' :: (appendInt m 2 ++ (ch ':' :: appendInt s 2)))

/-- `t.UTC().Format("2006-01-02T15:04:05")`. -/
def formatSeconds (t : Time) : Bytes :=
  let date := dateOf t
  appendInt date.year 4 ++ (ch '-' :: (appendInt date.month 2 ++ (ch '-' :: (appendInt date.day 2 ++
    (ch 'T' :: formatClock t)))))

/-- `t.UTC().Format("2006-01-02T15:04:05.000Z")`. -/
def formatMillis (t : Time) : Bytes :=
  formatSeconds t ++ (ch '.' :: (appendInt (millisOf t) 3 ++ str "Z"))

/-- `t.UTC().Format(time.RFC3339)`. -/
def formatRFC3339 (t : Time) : Bytes := formatSeconds t ++ str "Z"

def shortDayNames : List Bytes :=
  [str "Sun", str "Mon", str "Tue", str "Wed", str "Thu", str "Fri", str "Sat"]

def shortMonthNames : List Bytes :=
  [str "Jan", str "Feb", str "Mar", str "Apr", str "May", str "Jun", str "Jul", str "Aug",
    str "Sep", str "Oct", str "Nov", str "Dec"]

/-- `t.Weekday()`: year 1 starts on a Monday. -/
def weekdayOf (t : Time) : Nat := ((t / day + 1) % 7).toNat

/-- `t.UTC().Format(http.TimeFormat)`. -/
def formatHTTP (t : Time) : Bytes :=
  let date := dateOf t
  shortDayNames.getD (weekdayOf t) [] ++ (str ", " ++ (appendInt date.day 2 ++ (ch ' ' ::
    (shortMonthNames.getD (date.month - 1) [] ++ (ch ' ' :: (appendInt date.year 4 ++ (ch ' ' ::
      (formatClock t ++ str " GMT"))))))))

/-! ## Parsing -/

/-- `getnum(s, fixed)`: two digits, or one unless `fixed`. -/
def getnum (fixed : Bool) : Bytes → Option (Nat × Bytes)
  | [] => none
  | [a] => if isDigit a && !fixed then some ((a - ch '0').toNat, []) else none
  | a :: b :: rest =>
    if !isDigit a then none
    else if isDigit b then some ((a - ch '0').toNat * 10 + (b - ch '0').toNat, rest)
    else if fixed then none
    else some ((a - ch '0').toNat, b :: rest)

def getRange (fixed : Bool) (lo hi : Nat) (s : Bytes) : Option (Nat × Bytes) :=
  (getnum fixed s).filter fun (n, _) => lo ≤ n && n ≤ hi

def getYear (s : Bytes) : Option (Nat × Bytes) :=
  if s.length < 4 ∨ !isDigit (s.headD 0) then none
  else (parseDigits 10 0 (s.take 4)).map (·, s.drop 4)

/-- The fraction of a second that may follow the seconds though the layout has none: in
    nanoseconds, digits beyond those dropped. -/
def getFraction (s : Bytes) : Nat × Bytes :=
  match s with
  | c :: rest =>
    let digits := rest.takeWhile isDigit
    if (c = ch ',' ∨ c = ch '.') ∧ digits ≠ [] then
      let kept := digits.take 9
      ((parseDigits 10 0 kept).getD 0 * 10 ^ (9 - kept.length), rest.drop digits.length)
    else (0, s)
  | [] => (0, s)

/-- `skip(value, string(c))`. -/
def skipByte (c : UInt8) : Bytes → Option Bytes
  | [] => none
  | b :: rest => if b = c then some rest else none

/-- `time.Parse("20060102T150405Z", s)`. -/
def parseAmzDate (s : Bytes) : Option Time := do
  let (year, s) ← getYear s
  let (month, s) ← getRange true 1 12 s
  let (mday, s) ← getnum true s
  let s ← skipByte (ch 'T') s
  let (h, s) ← getRange false 0 23 s
  let (m, s) ← getRange true 0 59 s
  let (sec, s) ← getRange true 0 59 s
  let (nsec, s) := getFraction s
  let s ← skipByte (ch 'Z') s
  if s = [] ∧ 1 ≤ mday ∧ mday ≤ daysIn year month then
    some (Date.toDays { year, month, day := mday } * day + h * hour + m * minute + sec * second + nsec)
  else none

/-! ## The round trip -/

/-- An instant that the layouts can hold: a whole second of a year of four digits. -/
structure Datable (t : Time) : Prop where
  whole : t % second = 0
  year_nonneg : 0 ≤ (dateOf t).year
  year_le : (dateOf t).year ≤ 9999

theorem isDigit_of_mem_appendInt (n width : Nat) : ∀ b ∈ appendInt n width, isDigit b = true := by
  intro b h
  rw [appendInt, if_neg (by omega), List.nil_append] at h
  rcases List.mem_append.mp h with h | h
  · rw [List.eq_of_mem_replicate h]
    decide
  · exact isDigit_of_mem_formatNat h

theorem appendInt_two : ∀ n < 100,
    appendInt (n : Nat) 2 = [ch '0' + (n / 10).toUInt8, ch '0' + (n % 10).toUInt8] := by
  decide +kernel

theorem getnum_appendInt {n : Nat} (hn : n < 100) (fixed : Bool) (rest : Bytes) :
    getnum fixed (appendInt n 2 ++ rest) = some (n, rest) := by
  have hdigit : ∀ d < 10, isDigit (ch '0' + d.toUInt8) = true ∧
      (ch '0' + d.toUInt8 - ch '0').toNat = d := by decide
  obtain ⟨hten, htenVal⟩ := hdigit (n / 10) (by omega)
  obtain ⟨hone, honeVal⟩ := hdigit (n % 10) (by omega)
  rw [appendInt_two n hn]
  simp only [List.cons_append, List.nil_append, getnum, hten, hone, htenVal, honeVal]
  simp
  omega

theorem getRange_appendInt {n lo hi : Nat} (hn : n < 100) (hlo : lo ≤ n) (hhi : n ≤ hi) (fixed : Bool)
    (rest : Bytes) : getRange fixed lo hi (appendInt n 2 ++ rest) = some (n, rest) := by
  rw [getRange, getnum_appendInt hn]
  simp [hlo, hhi]

theorem parseDigits_zeros (k : Nat) (s : Bytes) :
    parseDigits 10 0 (List.replicate k (ch '0') ++ s) = parseDigits 10 0 s := by
  induction k with
  | zero => rfl
  | succ k ih =>
    rw [List.replicate_succ, List.cons_append, parseDigits, ← ih]
    rfl

theorem getYear_appendInt {n : Nat} (hn : n ≤ 9999) (rest : Bytes) :
    getYear (appendInt n 4 ++ rest) = some (n, rest) := by
  -- up to 9999 the padded year has exactly the four bytes that are read
  have hlen : (appendInt n 4).length = 4 := by
    have hle : (formatNat n).length ≤ 4 := by
      unfold formatNat
      split
      · decide
      · rw [List.length_map, List.length_reverse, Nat.digits_length_le_iff (by decide)]
        omega
    rw [appendInt, if_neg (by omega), List.nil_append, List.length_append, List.length_replicate,
      Int.natAbs_natCast]
    omega
  have hfirst : isDigit ((appendInt n 4 ++ rest).headD 0) = true := by
    cases hcons : appendInt n 4 with
    | nil => rw [hcons] at hlen; cases hlen
    | cons b s => exact isDigit_of_mem_appendInt n 4 b (by rw [hcons]; exact List.mem_cons_self)
  have hvalue : parseDigits 10 0 (appendInt n 4) = some n := by
    rw [appendInt, if_neg (by omega), List.nil_append, parseDigits_zeros, Int.natAbs_natCast,
      parseDigits_formatNat]
  rw [getYear, if_neg, List.take_left' hlen, List.drop_left' hlen, hvalue]
  · rfl
  · rw [hfirst, List.length_append]
    simp
    omega

theorem clockOf_spec {t : Time} (h : t % second = 0) :
    (clockOf t).1 ≤ 23 ∧ (clockOf t).2.1 ≤ 59 ∧ (clockOf t).2.2 ≤ 59 ∧
      t = t / day * day + (clockOf t).1 * hour + (clockOf t).2.1 * minute + (clockOf t).2.2 * second := by
  unfold clockOf day hour minute second Time at *
  dsimp only
  omega

theorem parseAmzDate_formatAmzDate {t : Time} (h : Datable t) : parseAmzDate (formatAmzDate t) = some t := by
  obtain ⟨hhour, hminute, hsecond, ht⟩ := clockOf_spec h.whole
  obtain ⟨hmonth, hmonth', hday, hday'⟩ := Date.ofDays_valid (t / day)
  have hdays := Date.toDays_ofDays (t / day)
  have hday31 := Nat.le_trans hday' (Gregorian.daysIn_le _ _)
  obtain ⟨y, hyear⟩ := Int.eq_ofNat_of_zero_le h.year_nonneg
  have hyear' := h.year_le
  unfold dateOf at hyear hyear'
  rw [parseAmzDate, formatAmzDate]
  dsimp only [dateOf]
  generalize Date.ofDays (t / day) = date at *
  obtain ⟨year, month, mday⟩ := date
  dsimp only at *
  subst hyear
  -- each part is read back and leaves the text of the next
  rw [getYear_appendInt (by omega)]
  simp only [Option.bind_eq_bind, Option.bind_some]
  rw [getRange_appendInt (by omega) hmonth hmonth']
  simp only [Option.bind_some]
  rw [getnum_appendInt (by omega)]
  simp only [Option.bind_some, skipByte, if_true]
  rw [getRange_appendInt (by omega) (Nat.zero_le _) hhour]
  simp only [Option.bind_some]
  rw [getRange_appendInt (by omega) (Nat.zero_le _) hminute]
  simp only [Option.bind_some]
  rw [getRange_appendInt (by omega) (Nat.zero_le _) hsecond]
  have hfraction : getFraction (str "Z") = (0, [ch 'Z']) := by decide
  simp only [Option.bind_some, hfraction, if_true]
  rw [if_pos ⟨trivial, hday, hday'⟩, hdays]
  exact congrArg some (by simpa using ht.symm)

theorem isDigit_of_mem_formatScopeDate {t : Time} (h : Datable t) :
    ∀ b ∈ formatScopeDate t, isDigit b = true := by
  obtain ⟨y, hyear⟩ := Int.eq_ofNat_of_zero_le h.year_nonneg
  intro b hb
  rw [formatScopeDate, hyear] at hb
  rcases List.mem_append.mp hb with hb | hb
  · exact isDigit_of_mem_appendInt _ _ b hb
  · rcases List.mem_append.mp hb with hb | hb
    · exact isDigit_of_mem_appendInt _ _ b hb
    · exact isDigit_of_mem_appendInt _ _ b hb

end Go
