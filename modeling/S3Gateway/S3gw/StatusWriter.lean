import Mathlib.Data.List.Basic
import S3Gateway.Go.Bytes

/-! # Writing a response

`statusWriter` over the writer of `net/http`: a status that may panic, bytes that a limiter may hold
back or a status forbid.  What a write leaves is said for every limiter and every length. -/

namespace S3Gateway.S3gw

open Go

/-! ## The writers -/

/-- A value passed to `panic`. -/
inductive Panic where
  | abortHandler
  | other (value : Bytes)
deriving DecidableEq

/-- How a wait of a `BandwidthLimiter` ends. -/
inductive Wait where
  | granted
  | failed
  | panicked (value : Panic)
deriving DecidableEq

/-- What a response sends: the status of a header, and the bytes of its body. -/
inductive Sent where
  | status (code : Nat)
  | byte (b : UInt8)
deriving DecidableEq

/-- The `ResponseWriter` of `net/http`, over a connection that takes everything.  `final` is the status
    of the header, once it is written. -/
structure ResponseWriter where
  final : Option Nat := none
  sent : List Sent := []
deriving DecidableEq

namespace ResponseWriter

/-- `checkWriteHeaderCode(code)`. -/
def validCode (code : Nat) : Bool := 100 ≤ code && code ≤ 999

def isInformational (code : Nat) : Bool := 100 ≤ code && code ≤ 199 && code != 101

/-- `bodyAllowedForStatus(status)`. -/
def bodyAllowed (status : Nat) : Bool := !(100 ≤ status && status ≤ 199) && status != 204 && status != 304

/-- `w.WriteHeader(code)`, with no writer where it panics. -/
def writeHeader (w : ResponseWriter) (code : Nat) : Option ResponseWriter :=
  if w.final.isSome then some w
  else if !validCode code then none
  else if isInformational code then some { w with sent := w.sent ++ [.status code] }
  else some { final := some code, sent := w.sent ++ [.status code] }

/-- The implicit `w.WriteHeader(StatusOK)` of a `Write`. -/
def begin (w : ResponseWriter) : ResponseWriter :=
  if w.final.isSome then w else { final := some 200, sent := w.sent ++ [.status 200] }

/-- `w.Write(p)`, and whether it wrote all of `p`. -/
def write (w : ResponseWriter) (p : Bytes) : ResponseWriter × Bool :=
  let w := w.begin
  if p = [] then (w, true)
  else if bodyAllowed (w.final.getD 200) then ({ w with sent := w.sent ++ p.map .byte }, true)
  else (w, false)

end ResponseWriter

/-- `statusWriter`.  A limiter answers its waits one after another, `waits` of them so far. -/
structure StatusWriter where
  w : ResponseWriter := {}
  status : Nat := 200
  started : Bool := false
  written : Nat := 0
  limiter : Option (Nat → Wait) := none
  waits : Nat := 0

/-- A computation on the writer that may end in a panic. -/
abbrev Writing := StatusWriter × Option Panic

def Writing.andThen (w : Writing) (next : StatusWriter → Writing) : Writing :=
  match w.2 with
  | some p => (w.1, some p)
  | none => next w.1

def invalidWriteHeader : Panic := .other (str "invalid WriteHeader code")

namespace StatusWriter

def writeHeader (sw : StatusWriter) (status : Nat) : Writing :=
  let sw := { sw with status, started := true }
  match sw.w.writeHeader status with
  | none => (sw, some invalidWriteHeader)
  | some w => ({ sw with w }, none)

/-- A `Write` of the writer below, counted, and whether it wrote all of `p`. -/
def writeBelow (sw : StatusWriter) (p : Bytes) : StatusWriter × Bool :=
  match sw.w.write p with
  | (w, true) => ({ sw with w, written := sw.written + p.length }, true)
  | (w, false) => ({ sw with w }, false)

def waitChunk : Nat := 32 * 1024

/-- The loop of `Write` that waits before each slice, with fuel for it. -/
def writeSlices (limiter : Nat → Wait) : Nat → StatusWriter → Bytes → Writing
  | 0, sw, _ => (sw, none)
  | fuel + 1, sw, p =>
    if p = [] then (sw, none)
    else
      -- the wait comes first: a slice that is not granted is not sent
      let waited := { sw with waits := sw.waits + 1 }
      match limiter sw.waits with
      | .failed => (waited, none)
      | .panicked v => (waited, some v)
      | .granted =>
        match waited.writeBelow (p.take waitChunk) with
        | (sw, true) => writeSlices limiter fuel sw (p.drop waitChunk)
        | (sw, false) => (sw, none)

/-- `sw.Write(p)`; no caller here looks at what it returns. -/
def write (sw : StatusWriter) (p : Bytes) : Writing :=
  let sw := { sw with started := true }
  match sw.limiter with
  | none => ((sw.writeBelow p).1, none)
  | some limiter => writeSlices limiter p.length sw p

end StatusWriter

/-! ## What a write leaves -/

namespace ResponseWriter

/-- The header is written once: with its status, or with 200 by the first bytes. -/
theorem write_final (w : ResponseWriter) (p : Bytes) : (w.write p).1.final = some (w.final.getD 200) := by
  have hbegin : w.begin.final = some (w.final.getD 200) := by
    cases h : w.final <;> simp [begin, h]
  simp only [write]
  split
  · exact hbegin
  · split
    · exact hbegin
    · exact hbegin

theorem write_of_allowed {w : ResponseWriter} {c : Nat} (h : w.final = some c) (hc : bodyAllowed c = true) (p : Bytes) :
    w.write p = ({ w with sent := w.sent ++ p.map .byte }, true) := by
  obtain ⟨final, sent⟩ := w
  obtain rfl : final = some c := h
  by_cases hp : p = []
  · simp [write, begin, hp]
  · simp [write, begin, hp, hc]

theorem write_of_not_allowed {w : ResponseWriter} {c : Nat} (h : w.final = some c) (hc : bodyAllowed c = false) {p : Bytes}
    (hp : p ≠ []) : w.write p = (w, false) := by
  simp [write, begin, h, hp, hc]

/-- A status that `writeHeader` makes the one of the response. -/
def isFinal (code : Nat) : Bool := validCode code && !isInformational code

theorem writeHeader_of_isFinal {code : Nat} (h : isFinal code = true) :
    writeHeader {} code = some { final := some code, sent := [.status code] } := by
  simp only [isFinal, Bool.and_eq_true, Bool.not_eq_true'] at h
  simp [writeHeader, h.1, h.2]

theorem writeHeader_of_not_isFinal {code : Nat} (h : isFinal code = false) :
    writeHeader {} code = none ∨ code < 200 ∧ writeHeader {} code = some { sent := [.status code] } := by
  -- a valid code that is not final is informational
  by_cases hv : validCode code = true
  · have hi : isInformational code = true := by simpa [isFinal, hv] using h
    have hlt : code < 200 := by
      simp only [isInformational, Bool.and_eq_true, decide_eq_true_eq] at hi
      omega
    exact .inr ⟨hlt, by simp [writeHeader, hv, hi]⟩
  · exact .inl (by simp [writeHeader, hv])

end ResponseWriter

namespace StatusWriter

/-- How many slices the loop of `Write` cuts `p` into. -/
def waitsFor (p : Bytes) : Nat := (p.length + (waitChunk - 1)) / waitChunk

@[simp]
theorem waitsFor_nil : waitsFor [] = 0 := by decide

theorem waitsFor_of_ne_nil {p : Bytes} (h : p ≠ []) : waitsFor p = waitsFor (p.drop waitChunk) + 1 := by
  have hpos : 0 < p.length := List.length_pos_iff.mpr h
  simp only [waitsFor, List.length_drop, waitChunk]
  omega

/-- The limiter grants `n` waits from the one numbered `start` on. -/
def Grants (limiter : Nat → Wait) (start n : Nat) : Prop := ∀ k < n, limiter (start + k) = .granted

theorem grants_succ {limiter : Nat → Wait} {start n : Nat} :
    Grants limiter start (n + 1) ↔ limiter start = .granted ∧ Grants limiter (start + 1) n := by
  constructor
  · intro h
    refine ⟨h 0 (by omega), fun k hk => ?_⟩
    have := h (k + 1) (by omega)
    rwa [show start + (k + 1) = start + 1 + k by omega] at this
  · rintro ⟨h0, h⟩ k hk
    cases k with
    | zero => exact h0
    | succ k =>
      rw [show start + (k + 1) = start + 1 + k by omega]
      exact h k (by omega)

theorem grants_add {limiter : Nat → Wait} {start m n : Nat} :
    Grants limiter start (m + n) ↔ Grants limiter start m ∧ Grants limiter (start + m) n := by
  constructor
  · intro h
    refine ⟨fun k hk => h k (by omega), fun k hk => ?_⟩
    rw [Nat.add_assoc]
    exact h (m + k) (by omega)
  · rintro ⟨hm, hn⟩ k hk
    by_cases hkm : k < m
    · exact hm k hkm
    · have := hn (k - m) (by omega)
      rwa [show start + m + (k - m) = start + k by omega] at this

/-- The writer after all of `p`, with `n` waits for it. -/
def wrote (sw : StatusWriter) (p : Bytes) (n : Nat) : StatusWriter :=
  { sw with
    w := { sw.w with sent := sw.w.sent ++ p.map .byte }, written := sw.written + p.length, waits := sw.waits + n }

theorem writeBelow_of_allowed (sw : StatusWriter) {c : Nat} (h : sw.w.final = some c)
    (hc : ResponseWriter.bodyAllowed c = true) (p : Bytes) : sw.writeBelow p = (sw.wrote p 0, true) := by
  simp [writeBelow, ResponseWriter.write_of_allowed h hc, wrote]

theorem writeBelow_nil (sw : StatusWriter) {c : Nat} (h : sw.w.final = some c) : sw.writeBelow [] = (sw.wrote [] 0, true) := by
  have hbegin : sw.w.begin = sw.w := by simp [ResponseWriter.begin, h]
  simp [writeBelow, ResponseWriter.write, hbegin, wrote]

theorem writeBelow_of_not_allowed (sw : StatusWriter) {c : Nat} (h : sw.w.final = some c)
    (hc : ResponseWriter.bodyAllowed c = false) {p : Bytes} (hp : p ≠ []) : sw.writeBelow p = (sw, false) := by
  simp [writeBelow, ResponseWriter.write_of_not_allowed h hc hp]

theorem writeBelow_final (sw : StatusWriter) (p : Bytes) : (sw.writeBelow p).1.w.final = some (sw.w.final.getD 200) := by
  rw [← ResponseWriter.write_final sw.w p, writeBelow]
  split <;> simp_all

theorem writeSlices_granted {limiter : Nat → Wait} {c : Nat} (hc : ResponseWriter.bodyAllowed c = true) (fuel : Nat)
    (sw : StatusWriter) (p : Bytes) (h : sw.w.final = some c) (hfuel : p.length ≤ fuel)
    (hg : Grants limiter sw.waits (waitsFor p)) :
    writeSlices limiter fuel sw p = (sw.wrote p (waitsFor p), none) := by
  induction fuel generalizing sw p with
  | zero =>
    obtain rfl : p = [] := List.length_eq_zero_iff.mp (by omega)
    simp [writeSlices, wrote]
  | succ fuel ih =>
    by_cases hp : p = []
    · subst hp
      simp [writeSlices, wrote]
    · rw [waitsFor_of_ne_nil hp, grants_succ] at hg
      obtain ⟨h0, hrest⟩ := hg
      have hlen : (p.drop waitChunk).length ≤ fuel := by
        have := List.length_pos_iff.mpr hp
        simp only [List.length_drop, waitChunk]
        omega
      -- one wait and one slice, and the loop goes on from the writer after them
      have hstep := writeBelow_of_allowed { sw with waits := sw.waits + 1 } h hc (p.take waitChunk)
      have hloop := ih (wrote { sw with waits := sw.waits + 1 } (p.take waitChunk) 0) (p.drop waitChunk) h hlen hrest
      simp only [writeSlices, if_neg hp, h0, hstep, hloop, waitsFor_of_ne_nil hp]
      have hlen' : (p.take waitChunk).length + (p.drop waitChunk).length = p.length := by
        rw [← List.length_append, List.take_append_drop]
      have hbytes : (p.take waitChunk).map Sent.byte ++ (p.drop waitChunk).map .byte = p.map .byte := by
        rw [← List.map_append, List.take_append_drop]
      simp only [wrote, List.append_assoc, hbytes, Nat.add_assoc, hlen', Nat.zero_add, Nat.add_comm 1]

/-- What a response of status `c` needs to take all of `p`. -/
def Takes (sw : StatusWriter) (c : Nat) (p : Bytes) : Prop :=
  (p = [] ∨ ResponseWriter.bodyAllowed c = true) ∧
    ∀ limiter, sw.limiter = some limiter → Grants limiter sw.waits (waitsFor p)

/-- The loop writes no more than `p`, and less of it where a wait or a write is refused. -/
theorem writeSlices_length (limiter : Nat → Wait) {c : Nat} (fuel : Nat) (sw : StatusWriter) (p : Bytes)
    (h : sw.w.final = some c) (hfuel : p.length ≤ fuel) :
    (writeSlices limiter fuel sw p).1.w.sent.length ≤ sw.w.sent.length + p.length ∧
      ((writeSlices limiter fuel sw p).1.w.sent.length = sw.w.sent.length + p.length →
        (p = [] ∨ ResponseWriter.bodyAllowed c = true) ∧ Grants limiter sw.waits (waitsFor p)) := by
  induction fuel generalizing sw p with
  | zero =>
    obtain rfl : p = [] := List.length_eq_zero_iff.mp (by omega)
    simp [writeSlices, Grants]
  | succ fuel ih =>
    by_cases hp : p = []
    · subst hp
      simp [writeSlices, Grants]
    · have hpos : 0 < p.length := List.length_pos_iff.mpr hp
      cases hw : limiter sw.waits with
      | failed =>
        simp only [writeSlices, if_neg hp, hw]
        exact ⟨by omega, fun heq => absurd heq (by omega)⟩
      | panicked v =>
        simp only [writeSlices, if_neg hp, hw]
        exact ⟨by omega, fun heq => absurd heq (by omega)⟩
      | granted =>
        -- the first slice is written or refused by the status, and the rest follows by induction
        have htake : p.take waitChunk ≠ [] := by simp [hp, waitChunk]
        by_cases hc : ResponseWriter.bodyAllowed c = true
        · have hstep := writeBelow_of_allowed { sw with waits := sw.waits + 1 } h hc (p.take waitChunk)
          have hlen : (p.drop waitChunk).length ≤ fuel := by
            simp only [List.length_drop, waitChunk]
            omega
          obtain ⟨hle, hfull⟩ := ih (wrote { sw with waits := sw.waits + 1 } (p.take waitChunk) 0) (p.drop waitChunk) h hlen
          have hcut : (p.take waitChunk).length + (p.drop waitChunk).length = p.length := by
            rw [← List.length_append, List.take_append_drop]
          have hsent : (wrote { sw with waits := sw.waits + 1 } (p.take waitChunk) 0).w.sent.length =
              sw.w.sent.length + (p.take waitChunk).length := by
            simp only [wrote, List.length_append, List.length_map]
          rw [hsent] at hle hfull
          simp only [writeSlices, if_neg hp, hw, hstep]
          refine ⟨by omega, fun heq => ⟨.inr hc, ?_⟩⟩
          rw [waitsFor_of_ne_nil hp, grants_succ]
          exact ⟨hw, (hfull (by omega)).2⟩
        · have hstep := writeBelow_of_not_allowed { sw with waits := sw.waits + 1 } h (by simpa using hc) htake
          simp only [writeSlices, if_neg hp, hw, hstep]
          exact ⟨by omega, fun heq => absurd heq (by omega)⟩

theorem writeSlices_keeps {P : StatusWriter → Prop} (hwait : ∀ sw, P sw → P { sw with waits := sw.waits + 1 })
    (hwrite : ∀ sw p, P sw → P (sw.writeBelow p).1) (limiter : Nat → Wait) (fuel : Nat) {sw : StatusWriter}
    (h : P sw) (p : Bytes) : P (writeSlices limiter fuel sw p).1 := by
  induction fuel generalizing sw p with
  | zero => exact h
  | succ fuel ih =>
    have hwaited := hwait sw h
    have hwrote := hwrite { sw with waits := sw.waits + 1 } (p.take waitChunk) hwaited
    simp only [writeSlices]
    split
    · exact h
    · split
      · exact hwaited
      · exact hwaited
      · split
        · rename_i sw' hstep
          rw [hstep] at hwrote
          exact ih hwrote (p.drop waitChunk)
        · rename_i sw' hstep
          rw [hstep] at hwrote
          exact hwrote

theorem write_of_limiter {sw : StatusWriter} {limiter : Nat → Wait} (h : sw.limiter = some limiter) (p : Bytes) :
    sw.write p = writeSlices limiter p.length { sw with started := true } p := by
  simp [write, h]

theorem write_final (sw : StatusWriter) (p : Bytes) :
    (sw.write p).1.w.final = sw.w.final ∨ (sw.write p).1.w.final = some (sw.w.final.getD 200) := by
  simp only [write]
  split
  · exact .inr (writeBelow_final _ p)
  · apply writeSlices_keeps
      (P := fun sw' => sw'.w.final = sw.w.final ∨ sw'.w.final = some (sw.w.final.getD 200))
    · exact fun _ h => h
    · intro sw' slice h
      rw [writeBelow_final]
      rcases h with h | h
      · rw [h]
        exact .inr rfl
      · rw [h]
        exact .inr rfl
    · exact .inl rfl

theorem write_final_some (sw : StatusWriter) {c : Nat} (h : sw.w.final = some c) (p : Bytes) :
    (sw.write p).1.w.final = some c := by
  have := write_final sw p
  rw [h] at this
  exact this.elim id id

theorem writeHeader_started (sw : StatusWriter) (status : Nat) : (sw.writeHeader status).1.started = true := by
  simp only [writeHeader]
  split <;> rfl

theorem writeBelow_started (sw : StatusWriter) (p : Bytes) : (sw.writeBelow p).1.started = sw.started := by
  simp only [writeBelow]
  split <;> rfl

theorem write_started (sw : StatusWriter) (p : Bytes) : (sw.write p).1.started = true := by
  simp only [write]
  split
  · exact writeBelow_started _ p
  · apply writeSlices_keeps (P := fun sw' => sw'.started = true)
    · exact fun _ h => h
    · exact fun sw' slice h => (writeBelow_started sw' slice).trans h
    · rfl

theorem write_of_takes (sw : StatusWriter) {c : Nat} {p : Bytes} (h : sw.w.final = some c) (ht : sw.Takes c p) :
    sw.write p = (wrote { sw with started := true } p (if sw.limiter.isSome then waitsFor p else 0), none) := by
  obtain ⟨hbody, hgrants⟩ := ht
  -- one call below without a limiter, the loop with one
  cases hl : sw.limiter with
  | none =>
    have hbelow : writeBelow { sw with started := true } p = (wrote { sw with started := true } p 0, true) := by
      rcases hbody with rfl | hc
      · exact writeBelow_nil { sw with started := true } h
      · exact writeBelow_of_allowed { sw with started := true } h hc p
    simp only [hl] at hbelow
    simp [write, hl, hbelow]
  | some limiter =>
    have hslices : writeSlices limiter p.length { sw with started := true } p =
        (wrote { sw with started := true } p (waitsFor p), none) := by
      rcases hbody with rfl | hc
      · simp [writeSlices, wrote]
      · exact writeSlices_granted hc p.length { sw with started := true } p h (le_refl _) (hgrants limiter hl)
    simp only [hl] at hslices
    simp [write, hl, hslices]

/-- A write takes no more than `p`, and all of it only where the response takes it. -/
theorem write_length (sw : StatusWriter) {c : Nat} (h : sw.w.final = some c) (p : Bytes) :
    (sw.write p).1.w.sent.length ≤ sw.w.sent.length + p.length ∧
      ((sw.write p).1.w.sent.length = sw.w.sent.length + p.length → sw.Takes c p) := by
  cases hl : sw.limiter with
  | some limiter =>
    obtain ⟨hle, hfull⟩ := writeSlices_length limiter p.length { sw with started := true } p h (le_refl _)
    rw [write_of_limiter hl]
    refine ⟨hle, fun heq => ⟨(hfull heq).1, fun limiter' hl' => ?_⟩⟩
    obtain rfl : limiter = limiter' := Option.some.inj (hl.symm.trans hl')
    exact (hfull heq).2
  | none =>
    have hwrite : sw.write p = ((writeBelow { sw with started := true } p).1, none) := by simp [write, hl]
    have hno : ∀ limiter, sw.limiter = some limiter → Grants limiter sw.waits (waitsFor p) := by simp [hl]
    rw [hwrite]
    by_cases hp : p = []
    · subst hp
      rw [writeBelow_nil { sw with started := true } h]
      exact ⟨by simp [wrote], fun _ => ⟨.inl rfl, hno⟩⟩
    · by_cases hc : ResponseWriter.bodyAllowed c = true
      · rw [writeBelow_of_allowed { sw with started := true } h hc]
        exact ⟨by simp [wrote], fun _ => ⟨.inr hc, hno⟩⟩
      · rw [writeBelow_of_not_allowed { sw with started := true } h (by simpa using hc) hp]
        have hpos : 0 < p.length := List.length_pos_iff.mpr hp
        exact ⟨Nat.le_add_right _ _, fun heq => absurd heq (by simp only; omega)⟩

end StatusWriter

end S3Gateway.S3gw
