import S3Gateway.Library.Journal
import S3Gateway.S3gw.StatusWriter

/-! # Pacing a response

`statusWriter.Write` over any writer and any limiter: either may fail or panic at any call, whatever
was called before, and a writer may take less than it is given.  What a write sends is a matter of the
calls it makes, so the calls are kept in a journal, and the limiter's grants are the credit that the
bytes sent use up.  `StatusWriter` is the case of the writer of `net/http`. -/

namespace S3Gateway.S3gw

open Go
open StatusWriter (waitChunk)

/-! ## The calls of a write -/

inductive PacedWriter.Outcome (ε : Type) where
  | ok
  | failed (err : ε)
  | panicked (value : Panic)
deriving DecidableEq

/-- A call with its end.  Of a slice it is given, a writer takes the first `n` bytes. -/
inductive PacedWriter.Call (ε : Type) where
  | waitN (n : Nat) (outcome : Outcome ε)
  | write (slice : Bytes) (n : Nat) (outcome : Outcome ε)
deriving DecidableEq

/-- What `Write` comes to. -/
inductive PacedWriter.Result (ε : Type) where
  | returned (n : Nat) (err : Option ε)
  | panicked (value : Panic)
deriving DecidableEq

/-- `statusWriter`, over a `BandwidthLimiter` and an `http.ResponseWriter` whose answers may depend on
    all calls before.  A writer takes no more than it is given. -/
structure PacedWriter (ε : Type) where
  below : List (PacedWriter.Call ε) → Bytes → Nat × PacedWriter.Outcome ε
  below_le : ∀ calls slice, (below calls slice).1 ≤ slice.length
  limiter : Option (List (PacedWriter.Call ε) → Nat → PacedWriter.Outcome ε) := none
  started : Bool := false
  written : Nat := 0
  calls : List (PacedWriter.Call ε) := []

namespace PacedWriter

variable {ε : Type}

def waitN (w : PacedWriter ε) (limiter : List (Call ε) → Nat → Outcome ε) (n : Nat) :
    PacedWriter ε × Outcome ε :=
  ({ w with calls := w.calls ++ [.waitN n (limiter w.calls n)] }, limiter w.calls n)

/-- `w.ResponseWriter.Write(slice)` and the count that follows it, which a panic skips. -/
def writeBelow (w : PacedWriter ε) (slice : Bytes) : PacedWriter ε × Nat × Outcome ε :=
  let (n, outcome) := w.below w.calls slice
  let w := { w with calls := w.calls ++ [.write slice n outcome] }
  match outcome with
  -- the bytes that went out before a panic are not counted
  | .panicked v => (w, n, .panicked v)
  | outcome => ({ w with written := w.written + n }, n, outcome)

/-- `end := min(total+waitChunk, len(p))`. -/
def sliceEnd (p : Bytes) (total : Nat) : Nat := min (total + waitChunk) p.length

/-- `p[total:end]`. -/
def slice (p : Bytes) (total : Nat) : Bytes := (p.take (sliceEnd p total)).drop total

/-- The loop of `Write`; no result after the given number of turns if it is still running. -/
def writeLoop (limiter : List (Call ε) → Nat → Outcome ε) (p : Bytes) :
    Nat → PacedWriter ε → Nat → PacedWriter ε × Option (Result ε)
  | 0, w, _ => (w, none)
  | turns + 1, w, total =>
    if total < p.length then
      -- the wait comes first, so a slice that is refused is never sent
      match w.waitN limiter (sliceEnd p total - total) with
      | (w, .panicked v) => (w, some (.panicked v))
      | (w, .failed err) => (w, some (.returned total (some err)))
      | (w, .ok) =>
        match w.writeBelow (slice p total) with
        | (w, _, .panicked v) => (w, some (.panicked v))
        | (w, n, .failed err) => (w, some (.returned (total + n) (some err)))
        | (w, n, .ok) => writeLoop limiter p turns w (total + n)
    else (w, some (.returned total none))

/-- `w.Write(p)`, with a number of turns for its loop. -/
def write (w : PacedWriter ε) (turns : Nat) (p : Bytes) : PacedWriter ε × Option (Result ε) :=
  let w := { w with started := true }
  match w.limiter with
  | none =>
    match w.writeBelow p with
    | (w, _, .panicked v) => (w, some (.panicked v))
    | (w, n, .failed err) => (w, some (.returned n (some err)))
    | (w, n, .ok) => (w, some (.returned n none))
  | some limiter => writeLoop limiter p turns w 0

/-! ## What the calls amount to -/

namespace Call

def outcome : Call ε → Outcome ε
  | .waitN _ outcome => outcome
  | .write _ _ outcome => outcome

def sent : Call ε → Bytes
  | .waitN _ _ => []
  | .write slice n _ => slice.take n

def granted : Call ε → Nat
  | .waitN n .ok => n
  | _ => 0

/-- Whether the limiter may be asked for this much. -/
def InBounds : Call ε → Prop
  | .waitN n _ => 0 < n ∧ n ≤ waitChunk
  | .write _ _ _ => True

end Call

def sent (calls : List (Call ε)) : Bytes := calls.flatMap Call.sent

def granted (calls : List (Call ε)) : Nat := (calls.map Call.granted).sum

@[simp]
theorem sent_nil : sent ([] : List (Call ε)) = [] := rfl

@[simp]
theorem sent_append (first second : List (Call ε)) : sent (first ++ second) = sent first ++ sent second :=
  List.flatMap_append

@[simp]
theorem sent_waitN (n : Nat) (outcome : Outcome ε) : sent [.waitN n outcome] = [] := rfl

@[simp]
theorem sent_write (slice : Bytes) (n : Nat) (outcome : Outcome ε) :
    sent [.write slice n outcome] = slice.take n := by
  simp [sent, Call.sent]

theorem length_sent (calls : List (Call ε)) :
    (sent calls).length = (calls.map fun c => c.sent.length).sum :=
  List.length_flatMap

/-- The grants are credit that the bytes sent use up. -/
abbrev Covered (calls : List (Call ε)) : Prop := Journal.Covered Call.granted (fun c => c.sent.length) calls

/-! ## One turn of the loop -/

/-- What is so at any time while `p` is written. -/
structure Paced (p : Bytes) (calls : List (Call ε)) : Prop where
  sends : sent calls <+: p
  covered : Covered calls
  bounds : ∀ c ∈ calls, c.InBounds
  stops : Journal.StopsAt (fun c => c.outcome ≠ .ok) calls

/-- What is so between two turns: all calls went well, and they sent the first `total` bytes. -/
structure Going (p : Bytes) (total : Nat) (calls : List (Call ε)) : Prop where
  le : total ≤ p.length
  sends : sent calls = p.take total
  covered : Covered calls
  bounds : ∀ c ∈ calls, c.InBounds
  ok : ∀ c ∈ calls, c.outcome = .ok

theorem going_nil (p : Bytes) : Going p 0 ([] : List (Call ε)) where
  le := Nat.zero_le _
  sends := rfl
  covered := Journal.covered_nil
  bounds := by simp
  ok := by simp

section Turn

variable {p : Bytes} {total : Nat} {calls : List (Call ε)}

theorem Going.paced (h : Going p total calls) : Paced p calls where
  sends := h.sends ▸ List.take_prefix total p
  covered := h.covered
  bounds := h.bounds
  stops := Journal.stopsAt_of_none fun c hc hne => hne (h.ok c hc)

theorem Going.length_sent (h : Going p total calls) : (sent calls).length = total := by
  rw [h.sends, List.length_take, Nat.min_eq_left h.le]

theorem sliceEnd_bounds (hlt : total < p.length) :
    0 < sliceEnd p total - total ∧ sliceEnd p total - total ≤ waitChunk := by
  unfold sliceEnd waitChunk
  omega

@[simp]
theorem length_slice (p : Bytes) (total : Nat) : (slice p total).length = sliceEnd p total - total := by
  simp [slice, sliceEnd]

theorem take_append_slice {n : Nat} (hn : n ≤ (slice p total).length) :
    p.take total ++ (slice p total).take n = p.take (total + n) := by
  rw [length_slice] at hn
  rw [slice, List.drop_take, List.take_take, Nat.min_eq_left hn, List.take_add]

variable {c : Call ε}

theorem Going.spent_le (h : Going p total calls) : total ≤ granted calls := by
  have htotal := h.covered.total
  rwa [← PacedWriter.length_sent, h.length_sent] at htotal

/-- A further call that is in bounds, and sends no more than is granted, may end in any way. -/
theorem Going.concat (h : Going p total calls) (hbounds : c.InBounds) (hsent : sent (calls ++ [c]) <+: p)
    (hcredit : total + c.sent.length ≤ granted calls + c.granted) : Paced p (calls ++ [c]) where
  sends := hsent
  covered := by
    apply h.covered.concat
    rwa [← PacedWriter.length_sent, h.length_sent]
  bounds := by
    intro d hd
    rcases List.mem_append.mp hd with hd | hd
    · exact h.bounds d hd
    · rwa [List.mem_singleton.mp hd]
  stops := Journal.stopsAt_concat (fun d hd hne => hne (h.ok d hd)) c

theorem Going.concat_ok {total' : Nat} (h : Going p total calls) (hpaced : Paced p (calls ++ [c]))
    (hok : c.outcome = .ok) (hle : total' ≤ p.length) (hsent : sent (calls ++ [c]) = p.take total') :
    Going p total' (calls ++ [c]) where
  le := hle
  sends := hsent
  covered := hpaced.covered
  bounds := hpaced.bounds
  ok := by
    intro d hd
    rcases List.mem_append.mp hd with hd | hd
    · exact h.ok d hd
    · rwa [List.mem_singleton.mp hd]

theorem Going.waitN (h : Going p total calls) (hlt : total < p.length) (outcome : Outcome ε) :
    Paced p (calls ++ [.waitN (sliceEnd p total - total) outcome]) := by
  apply h.concat
  · exact sliceEnd_bounds hlt
  · rw [sent_append, sent_waitN, List.append_nil]
    exact h.paced.sends
  · exact Nat.le_trans h.spent_le (Nat.le_add_right _ _)

theorem Going.waited (h : Going p total calls) (hlt : total < p.length) :
    Going p total (calls ++ [.waitN (sliceEnd p total - total) .ok]) := by
  apply h.concat_ok (h.waitN hlt .ok) rfl h.le
  rw [sent_append, sent_waitN, List.append_nil, h.sends]

theorem Going.write (h : Going p total calls) {n : Nat} (hn : n ≤ (slice p total).length)
    (hcredit : total + (slice p total).length ≤ granted calls) (outcome : Outcome ε) :
    Paced p (calls ++ [.write (slice p total) n outcome]) := by
  apply h.concat
  · trivial
  · rw [sent_append, sent_write, h.sends, take_append_slice hn]
    exact List.take_prefix _ p
  · simp only [Call.sent, Call.granted, List.length_take]
    omega

theorem Going.wrote (h : Going p total calls) (hlt : total < p.length) {n : Nat}
    (hn : n ≤ (slice p total).length) (hcredit : total + (slice p total).length ≤ granted calls) :
    Going p (total + n) (calls ++ [.write (slice p total) n .ok]) := by
  apply h.concat_ok (h.write hn hcredit .ok) rfl
  · rw [length_slice, sliceEnd] at hn
    omega
  · rw [sent_append, sent_write, h.sends, take_append_slice hn]

theorem Going.length_waitN (h : Going p total calls) (n : Nat) (outcome : Outcome ε) :
    (sent (calls ++ [.waitN n outcome])).length = total := by
  rw [sent_append, sent_waitN, List.append_nil, h.length_sent]

theorem Going.length_write (h : Going p total calls) {n : Nat} (hn : n ≤ (slice p total).length)
    (outcome : Outcome ε) : (sent (calls ++ [.write (slice p total) n outcome])).length = total + n := by
  rw [sent_append, List.length_append, h.length_sent, sent_write, List.length_take, Nat.min_eq_left hn]

theorem Going.credit (h : Going p total calls) :
    total + (slice p total).length ≤ granted (calls ++ [.waitN (sliceEnd p total - total) .ok]) := by
  have hspent := h.spent_le
  simp only [granted, List.map_append, List.sum_append, List.map_cons, List.map_nil, Call.granted,
    List.sum_singleton, length_slice] at hspent ⊢
  omega

end Turn

/-! ## The loop -/

section Loop

variable {p : Bytes} {total : Nat} {calls : List (Call ε)} {w : PacedWriter ε}
variable {limiter : List (Call ε) → Nat → Outcome ε}

/-- What `io.Writer` asks: a writer that takes less than it is given says why. -/
def Reports (w : PacedWriter ε) : Prop :=
  ∀ calls slice, (w.below calls slice).2 = .ok → (w.below calls slice).1 = slice.length

/-- All that a turn of the loop can do, where `next` is the rest of the loop. -/
inductive Turn (p : Bytes) (w : PacedWriter ε) (total : Nat)
    (next : PacedWriter ε → Nat → PacedWriter ε × Option (Result ε)) :
    PacedWriter ε × Option (Result ε) → Prop where
  | done (hend : ¬total < p.length) : Turn p w total next (w, some (.returned total none))
  | waitFailed (hlt : total < p.length) (e : ε) :
    Turn p w total next
      ({ w with calls := w.calls ++ [.waitN (sliceEnd p total - total) (.failed e)] },
        some (.returned total (some e)))
  | waitPanicked (hlt : total < p.length) (v : Panic) :
    Turn p w total next
      ({ w with calls := w.calls ++ [.waitN (sliceEnd p total - total) (.panicked v)] }, some (.panicked v))
  | writeFailed (hlt : total < p.length) {n : Nat} (hn : n ≤ (slice p total).length) (e : ε) :
    Turn p w total next
      ({ w with
          calls := w.calls ++ [.waitN (sliceEnd p total - total) .ok] ++
            [.write (slice p total) n (.failed e)]
          written := w.written + n }, some (.returned (total + n) (some e)))
  | writePanicked (hlt : total < p.length) {n : Nat} (hn : n ≤ (slice p total).length) (v : Panic) :
    Turn p w total next
      ({ w with
          calls := w.calls ++ [.waitN (sliceEnd p total - total) .ok] ++
            [.write (slice p total) n (.panicked v)] },
        some (.panicked v))
  | wrote (hlt : total < p.length) {n : Nat} (hn : n ≤ (slice p total).length)
      (hwhole : w.Reports → n = (slice p total).length) :
    Turn p w total next
      (next { w with
          calls := w.calls ++ [.waitN (sliceEnd p total - total) .ok] ++ [.write (slice p total) n .ok]
          written := w.written + n } (total + n))

theorem writeLoop_turn (limiter : List (Call ε) → Nat → Outcome ε) (p : Bytes) (turns : Nat)
    (w : PacedWriter ε) (total : Nat) : Turn p w total (writeLoop limiter p turns) (writeLoop limiter p (turns + 1) w total) := by
  by_cases hlt : total < p.length
  · simp only [writeLoop, if_pos hlt, PacedWriter.waitN]
    cases hgrant : limiter w.calls (sliceEnd p total - total) with
    | panicked v => exact .waitPanicked hlt v
    | failed e => exact .waitFailed hlt e
    | ok =>
      have hn := w.below_le (w.calls ++ [.waitN (sliceEnd p total - total) .ok]) (slice p total)
      obtain ⟨n, outcome, hbelow⟩ : ∃ n outcome,
          w.below (w.calls ++ [.waitN (sliceEnd p total - total) .ok]) (slice p total) = (n, outcome) :=
        ⟨_, _, rfl⟩
      simp only [writeBelow, hbelow] at hn ⊢
      cases outcome with
      | panicked v => exact .writePanicked hlt hn v
      | failed e => exact .writeFailed hlt hn e
      | ok =>
        refine .wrote hlt hn fun hw => ?_
        have hreports := hw (w.calls ++ [.waitN (sliceEnd p total - total) .ok]) (slice p total)
        rw [hbelow] at hreports
        exact hreports rfl
  · simp only [writeLoop, if_neg hlt]
    exact .done hlt

/-- A run of the loop, from a writer that has sent `total` bytes in the given calls: the calls it adds,
    and what it comes to. -/
structure Run (p : Bytes) (total : Nat) (calls : List (Call ε)) (w : PacedWriter ε)
    (out : PacedWriter ε × Option (Result ε)) (more : List (Call ε)) : Prop where
  recorded : out.1.calls = w.calls ++ more
  paced : Paced p (calls ++ more)
  returned : ∀ n err, out.2 = some (.returned n err) →
    (sent (calls ++ more)).length = n ∧ out.1.written + total = w.written + n ∧ (err = none → n = p.length)
  panicked : ∀ v, out.2 = some (.panicked v) → ∃ c ∈ more, c.outcome = .panicked v

theorem Run.cons {total' : Nat} {w' : PacedWriter ε} {out : PacedWriter ε × Option (Result ε)}
    {first more : List (Call ε)} (h : Run p total' (calls ++ first) w' out more)
    (hcalls : w'.calls = w.calls ++ first) (hwritten : w'.written + total = w.written + total') :
    Run p total calls w out (first ++ more) where
  recorded := by rw [h.recorded, hcalls, List.append_assoc]
  paced := List.append_assoc calls first more ▸ h.paced
  returned := by
    intro n err hout
    obtain ⟨hlength, hcount, hwhole⟩ := h.returned n err hout
    rw [← List.append_assoc]
    exact ⟨hlength, by omega, hwhole⟩
  panicked := by
    intro v hout
    obtain ⟨c, hc, hpanic⟩ := h.panicked v hout
    exact ⟨c, List.mem_append_right first hc, hpanic⟩

theorem run_of_panic {w' : PacedWriter ε} {more : List (Call ε)} {v : Panic}
    (hcalls : w'.calls = w.calls ++ more) (hpaced : Paced p (calls ++ more))
    (hpanic : ∃ c ∈ more, c.outcome = .panicked v) : Run p total calls w (w', some (.panicked v)) more where
  recorded := hcalls
  paced := hpaced
  returned := by
    intro n err hout
    cases hout
  panicked := by
    intro v' hout
    cases hout
    exact hpanic

theorem run_of_return {w' : PacedWriter ε} {more : List (Call ε)} {n : Nat} {err : Option ε}
    (hcalls : w'.calls = w.calls ++ more) (hpaced : Paced p (calls ++ more))
    (hlength : (sent (calls ++ more)).length = n) (hwritten : w'.written + total = w.written + n)
    (hwhole : err = none → n = p.length) : Run p total calls w (w', some (.returned n err)) more where
  recorded := hcalls
  paced := hpaced
  returned := by
    intro n' err' hout
    cases hout
    exact ⟨hlength, hwritten, hwhole⟩
  panicked := by
    intro v hout
    cases hout

/-- Whatever the limiter and the writer do, every number of turns keeps the pace. -/
theorem writeLoop_run (turns : Nat) (h : Going p total calls) :
    ∃ more, Run p total calls w (writeLoop limiter p turns w total) more := by
  induction turns generalizing total calls w with
  | zero =>
    refine ⟨[], ?_, ?_, ?_, ?_⟩
    · simp [writeLoop]
    · simpa using h.paced
    · intro n err hout
      cases hout
    · intro v hout
      cases hout
  | succ turns ih =>
    have hturn := writeLoop_turn limiter p turns w total
    generalize writeLoop limiter p (turns + 1) w total = out at hturn ⊢
    cases hturn with
    | done hend =>
      have hle := h.le
      have hpaced := h.paced
      have hlength := h.length_sent
      rw [← List.append_nil calls] at hpaced hlength
      exact ⟨[], run_of_return (List.append_nil _).symm hpaced hlength rfl fun _ => by omega⟩
    | waitFailed hlt e =>
      exact ⟨_, run_of_return rfl (h.waitN hlt (.failed e)) (h.length_waitN _ _) rfl (by simp)⟩
    | waitPanicked hlt v => exact ⟨_, run_of_panic rfl (h.waitN hlt (.panicked v)) (by simp [Call.outcome])⟩
    | writeFailed hlt hn e =>
      -- the wait has paid for the slice, however much of it is taken
      have hwrite := (h.waited hlt).write hn h.credit (.failed e)
      have hlength := (h.waited hlt).length_write hn (.failed e)
      rw [List.append_assoc] at hwrite hlength
      exact ⟨_, run_of_return (List.append_assoc ..) hwrite hlength (by dsimp only; omega) (by simp)⟩
    | writePanicked hlt hn v =>
      have hwrite := (h.waited hlt).write hn h.credit (.panicked v)
      rw [List.append_assoc] at hwrite
      exact ⟨_, run_of_panic (List.append_assoc ..) hwrite (by simp [Call.outcome])⟩
    | wrote hlt hn _ =>
      have hgoing := (h.waited hlt).wrote hlt hn h.credit
      rw [List.append_assoc] at hgoing
      obtain ⟨more, hrun⟩ := ih hgoing
      exact ⟨_, hrun.cons (List.append_assoc ..) (by dsimp only; omega)⟩

/-- Over a writer that reports what it does not take the loop ends: each turn of it sends a byte. -/
theorem writeLoop_ends {turns : Nat} (hw : w.Reports) (hturns : p.length - total < turns) :
    (writeLoop limiter p turns w total).2.isSome = true := by
  induction turns generalizing total w with
  | zero => exact absurd hturns (Nat.not_lt_zero _)
  | succ turns ih =>
    have hturn := writeLoop_turn limiter p turns w total
    generalize writeLoop limiter p (turns + 1) w total = out at hturn ⊢
    cases hturn with
    | wrote hlt hn hwhole =>
      have hpos := (sliceEnd_bounds hlt).1
      have hall := hwhole hw
      rw [length_slice] at hall
      apply ih
      · exact hw
      · omega
    | _ => rfl

end Loop

/-! ## A write -/

section Write

variable {w : PacedWriter ε} {limiter : List (Call ε) → Nat → Outcome ε}

theorem write_of_limiter (h : w.limiter = some limiter) (turns : Nat) (p : Bytes) :
    w.write turns p = writeLoop limiter p turns { w with started := true } 0 := by
  simp only [write, h]

theorem write_run (h : w.limiter = some limiter) (turns : Nat) (p : Bytes) :
    ∃ calls, Run p 0 [] w (w.write turns p) calls := by
  rw [write_of_limiter h]
  obtain ⟨calls, hrun⟩ := writeLoop_run turns (going_nil p)
  exact ⟨calls, hrun.recorded, hrun.paced, hrun.returned, hrun.panicked⟩

/-- With a limiter, whatever it and the writer below do and however long the loop has run: the bytes
    sent are the first of `p`; at no time are they more than was granted by then; a wait is for at
    least one byte and at most a chunk; no call follows one that did not end well; and what is
    returned, as what is counted, is how many bytes were sent, with no error only if it was all of
    `p`.  Over a writer that reports what it does not take, the loop ends. -/
theorem write_never_outruns (h : w.limiter = some limiter) (p : Bytes) :
    (∀ turns, ∃ calls, (w.write turns p).1.calls = w.calls ++ calls ∧ sent calls <+: p ∧
        (∀ done, done <+: calls → (sent done).length ≤ granted done) ∧
        (∀ n outcome, .waitN n outcome ∈ calls → 0 < n ∧ n ≤ waitChunk) ∧
        (∀ before c after, calls = before ++ c :: after → c.outcome ≠ .ok → after = []) ∧
        (∀ n err, (w.write turns p).2 = some (.returned n err) →
          (sent calls).length = n ∧ (w.write turns p).1.written = w.written + n ∧
            (err = none → sent calls = p)) ∧
        ∀ v, (w.write turns p).2 = some (.panicked v) → ∃ c ∈ calls, c.outcome = .panicked v) ∧
      (w.Reports → ∀ turns, p.length < turns → (w.write turns p).2.isSome = true) := by
  constructor
  · intro turns
    obtain ⟨calls, hrun⟩ := write_run h turns p
    have hpaced := hrun.paced
    rw [List.nil_append] at hpaced
    refine ⟨calls, hrun.recorded, hpaced.sends, ?_, ?_, hpaced.stops, ?_, hrun.panicked⟩
    · intro done hdone
      rw [length_sent]
      exact hpaced.covered done hdone
    · intro n outcome hmem
      exact hpaced.bounds _ hmem
    · intro n err hout
      obtain ⟨hlength, hwritten, hwhole⟩ := hrun.returned n err hout
      rw [List.nil_append] at hlength
      refine ⟨hlength, hwritten, fun hnone => ?_⟩
      exact hpaced.sends.eq_of_length (hlength.trans (hwhole hnone))
  · intro hw turns hturns
    rw [write_of_limiter h]
    exact writeLoop_ends hw hturns

end Write

/-- A connection that breaks after the first byte, under a limiter that grants everything. -/
def brokenPipe : PacedWriter Bytes where
  below _ slice := (min 1 slice.length, .failed (str "broken pipe"))
  below_le _ _ := Nat.min_le_right _ _
  limiter := some fun _ _ => .ok

theorem brokenPipe_never_outruns :
    (brokenPipe.write 4 (str "abc")).2 = some (.returned 1 (some (str "broken pipe"))) ∧
      (sent (brokenPipe.write 4 (str "abc")).1.calls).length = 1 := by
  have hreturned : (brokenPipe.write 4 (str "abc")).2 = some (.returned 1 (some (str "broken pipe"))) := by
    decide
  obtain ⟨calls, hcalls, -, -, -, -, hcount, -⟩ := (write_never_outruns (w := brokenPipe) rfl (str "abc")).1 4
  refine ⟨hreturned, ?_⟩
  rw [hcalls]
  exact (hcount _ _ hreturned).1

/-! ## The writer of `net/http` -/

def waitCount (calls : List (Call ε)) : Nat :=
  (calls.map fun | .waitN _ _ => 1 | .write _ _ _ => 0).sum

/-- The calls, made on a writer of `net/http`. -/
def replay (w : ResponseWriter) (calls : List (Call ε)) : ResponseWriter :=
  calls.foldl (fun w => fun | .waitN _ _ => w | .write slice _ _ => (w.write slice).1) w

@[simp]
theorem replay_waitN (w : ResponseWriter) (calls : List (Call ε)) (n : Nat) (outcome : Outcome ε) :
    replay w (calls ++ [.waitN n outcome]) = replay w calls := by
  simp [replay]

@[simp]
theorem replay_write (w : ResponseWriter) (calls : List (Call ε)) (slice : Bytes) (n : Nat)
    (outcome : Outcome ε) :
    replay w (calls ++ [.write slice n outcome]) = ((replay w calls).write slice).1 := by
  simp [replay]

@[simp]
theorem waitCount_waitN (calls : List (Call ε)) (n : Nat) (outcome : Outcome ε) :
    waitCount (calls ++ [.waitN n outcome]) = waitCount calls + 1 := by
  simp [waitCount]

@[simp]
theorem waitCount_write (calls : List (Call ε)) (slice : Bytes) (n : Nat) (outcome : Outcome ε) :
    waitCount (calls ++ [.write slice n outcome]) = waitCount calls := by
  simp [waitCount]

def Result.panic : Result ε → Option Panic
  | .returned _ _ => none
  | .panicked v => some v

end PacedWriter

def Wait.outcome : Wait → PacedWriter.Outcome Unit
  | .granted => .ok
  | .failed => .failed ()
  | .panicked v => .panicked v

namespace StatusWriter

open PacedWriter (replay waitCount)

/-- The writer of `net/http`, which takes all of a slice or none of it. -/
def below (w : ResponseWriter) (calls : List (PacedWriter.Call Unit)) (slice : Bytes) :
    Nat × PacedWriter.Outcome Unit :=
  if ((replay w calls).write slice).2 then (slice.length, .ok) else (0, .failed ())

theorem below_le (w : ResponseWriter) (calls : List (PacedWriter.Call Unit)) (slice : Bytes) :
    (below w calls slice).1 ≤ slice.length := by
  unfold below
  split
  · exact Nat.le_refl _
  · exact Nat.zero_le _

/-- The limiter answers by the number of its waits. -/
def waitsFrom (start : Nat) (limiter : Nat → Wait) (calls : List (PacedWriter.Call Unit)) (_ : Nat) :
    PacedWriter.Outcome Unit :=
  (limiter (start + waitCount calls)).outcome

/-- The writer with its limiter and its connection as they are. -/
def paced (sw : StatusWriter) : PacedWriter Unit where
  below := below sw.w
  below_le := below_le sw.w
  limiter := sw.limiter.map (waitsFrom sw.waits)
  started := sw.started
  written := sw.written

/-- A writer of `net/http` as the calls of a paced writer have left it. -/
structure Mirrors (start sw : StatusWriter) (w : PacedWriter Unit) : Prop where
  below : w.below = StatusWriter.below start.w
  replayed : sw.w = replay start.w w.calls
  started : sw.started = w.started
  written : sw.written = w.written
  waited : sw.waits = start.waits + waitCount w.calls

section Mirrors

variable {start sw : StatusWriter} {w : PacedWriter Unit}

theorem Mirrors.waitN (h : Mirrors start sw w) (limiter : Nat → Wait) (n : Nat) :
    Mirrors start { sw with waits := sw.waits + 1 } (w.waitN (waitsFrom start.waits limiter) n).1 ∧
      (w.waitN (waitsFrom start.waits limiter) n).2 = (limiter sw.waits).outcome := by
  constructor
  · exact ⟨h.below, by simpa [PacedWriter.waitN] using h.replayed, h.started, h.written,
      by simp [PacedWriter.waitN, h.waited, Nat.add_assoc]⟩
  · rw [PacedWriter.waitN, waitsFrom, h.waited]

theorem Mirrors.writeBelow (h : Mirrors start sw w) (slice : Bytes) :
    Mirrors start (sw.writeBelow slice).1 (w.writeBelow slice).1 ∧
      (w.writeBelow slice).2 = if (sw.writeBelow slice).2 then (slice.length, .ok) else (0, .failed ()) := by
  obtain ⟨w', all, hwrite⟩ : ∃ w' all, sw.w.write slice = (w', all) := ⟨_, _, rfl⟩
  have hbelow : w.below w.calls slice = if all then (slice.length, .ok) else (0, .failed ()) := by
    rw [h.below, StatusWriter.below, ← h.replayed, hwrite]
  have hreplay : ((replay start.w w.calls).write slice).1 = w' := by rw [← h.replayed, hwrite]
  cases all with
  | true =>
    simp only [StatusWriter.writeBelow, hwrite, PacedWriter.writeBelow, hbelow, if_true]
    exact ⟨⟨h.below, by simp [hreplay], h.started, by simp [h.written], by simp [h.waited]⟩, trivial⟩
  | false =>
    simp only [StatusWriter.writeBelow, hwrite, PacedWriter.writeBelow, hbelow, Bool.false_eq_true, if_false]
    exact ⟨⟨h.below, by simp [hreplay], h.started, by simp [h.written], by simp [h.waited]⟩, trivial⟩

theorem slice_eq (p : Bytes) (total : Nat) : PacedWriter.slice p total = (p.drop total).take waitChunk := by
  rw [PacedWriter.slice, PacedWriter.sliceEnd, List.drop_take]
  rcases Nat.le_total (total + waitChunk) p.length with hle | hle
  · rw [Nat.min_eq_left hle, Nat.add_sub_cancel_left]
  · rw [Nat.min_eq_right hle, List.take_of_length_le (by simp), List.take_of_length_le]
    simp only [List.length_drop]
    omega

theorem drop_slice (p : Bytes) (total : Nat) :
    p.drop (total + (PacedWriter.slice p total).length) = (p.drop total).drop waitChunk := by
  rw [slice_eq, ← List.drop_drop, List.length_take]
  rcases Nat.le_total waitChunk (p.drop total).length with hle | hle
  · rw [Nat.min_eq_left hle]
  · rw [Nat.min_eq_right hle, List.drop_length, List.drop_of_length_le hle]

theorem Mirrors.writeSlices (h : Mirrors start sw w) (limiter : Nat → Wait) (p : Bytes)
    {total fuel turns : Nat} (hfuel : p.length - total ≤ fuel) (hturns : p.length - total < turns) :
    Mirrors start (writeSlices limiter fuel sw (p.drop total)).1
        (PacedWriter.writeLoop (waitsFrom start.waits limiter) p turns w total).1 ∧
      (writeSlices limiter fuel sw (p.drop total)).2 =
        (PacedWriter.writeLoop (waitsFrom start.waits limiter) p turns w total).2.bind (·.panic) := by
  induction turns generalizing sw w total fuel with
  | zero => exact absurd hturns (Nat.not_lt_zero _)
  | succ turns ih =>
    by_cases hlt : total < p.length
    · have hne : p.drop total ≠ [] := by
        rw [← List.length_pos_iff, List.length_drop]
        omega
      obtain ⟨fuel, rfl⟩ : ∃ k, fuel = k + 1 := ⟨fuel - 1, by omega⟩
      obtain ⟨hwaited, houtcome⟩ := h.waitN limiter (PacedWriter.sliceEnd p total - total)
      obtain ⟨w₁, outcome, hw₁⟩ : ∃ w₁ outcome, w.waitN (waitsFrom start.waits limiter)
          (PacedWriter.sliceEnd p total - total) = (w₁, outcome) := ⟨_, _, rfl⟩
      rw [hw₁] at hwaited houtcome
      obtain rfl : outcome = (limiter sw.waits).outcome := houtcome
      simp only [PacedWriter.writeLoop, if_pos hlt, hw₁, StatusWriter.writeSlices, if_neg hne, ← slice_eq]
      cases hgrant : limiter sw.waits with
      | failed => exact ⟨hwaited, rfl⟩
      | panicked v => exact ⟨hwaited, rfl⟩
      | granted =>
        -- the same slice on both sides, taken as a whole or refused
        obtain ⟨hwrote, hbelow⟩ := hwaited.writeBelow (PacedWriter.slice p total)
        obtain ⟨sw₂, all, hsw₂⟩ : ∃ sw₂ all, StatusWriter.writeBelow { sw with waits := sw.waits + 1 }
            (PacedWriter.slice p total) = (sw₂, all) := ⟨_, _, rfl⟩
        obtain ⟨w₂, reply, hw₂⟩ : ∃ w₂ reply, w₁.writeBelow (PacedWriter.slice p total) = (w₂, reply) :=
          ⟨_, _, rfl⟩
        rw [hsw₂, hw₂] at hwrote hbelow
        cases all with
        | false =>
          obtain rfl : reply = (0, .failed ()) := hbelow
          simp only [hsw₂, hw₂, Wait.outcome]
          exact ⟨hwrote, rfl⟩
        | true =>
          obtain rfl : reply = ((PacedWriter.slice p total).length, .ok) := hbelow
          have hpos := (PacedWriter.sliceEnd_bounds hlt).1
          have hlength := PacedWriter.length_slice p total
          simp only [hsw₂, hw₂, Wait.outcome, ← drop_slice]
          exact ih hwrote (by omega) (by omega)
    · have hnil : p.drop total = [] := List.drop_of_length_le (by omega)
      simp only [PacedWriter.writeLoop, if_neg hlt, hnil]
      cases fuel with
      | zero => exact ⟨h, rfl⟩
      | succ fuel => exact ⟨h, rfl⟩

/-- A write on the writer of `net/http` makes the calls of the paced writer: it leaves what they leave,
    and ends in a panic where they do. -/
theorem write_mirrors (sw : StatusWriter) (p : Bytes) {turns : Nat} (hturns : p.length < turns) :
    Mirrors sw (sw.write p).1 (sw.paced.write turns p).1 ∧
      (sw.write p).2 = (sw.paced.write turns p).2.bind (·.panic) := by
  have hstart : Mirrors sw { sw with started := true } { sw.paced with started := true } :=
    ⟨rfl, rfl, rfl, rfl, rfl⟩
  cases hl : sw.limiter with
  | none =>
    have hpaced : sw.paced.limiter = none := by simp [paced, hl]
    obtain ⟨hwrote, hbelow⟩ := hstart.writeBelow p
    obtain ⟨w, reply, hw⟩ : ∃ w reply,
        PacedWriter.writeBelow { sw.paced with started := true } p = (w, reply) := ⟨_, _, rfl⟩
    rw [hw] at hwrote hbelow
    simp only [write, hl, PacedWriter.write, hpaced] at hwrote hbelow hw ⊢
    split at hbelow
    · obtain rfl : reply = (p.length, .ok) := hbelow
      simp only [hw]
      exact ⟨hwrote, rfl⟩
    · obtain rfl : reply = (0, .failed ()) := hbelow
      simp only [hw]
      exact ⟨hwrote, rfl⟩
  | some limiter =>
    have hpaced : sw.paced.limiter = some (waitsFrom sw.waits limiter) := by simp [paced, hl]
    rw [write_of_limiter hl, PacedWriter.write_of_limiter hpaced]
    -- every turn writes a byte or stops, so there are turns enough
    have hzero : p.length - 0 < turns := hturns
    exact hstart.writeSlices limiter p (Nat.le_refl p.length) hzero

theorem write_paced {limiter : Nat → Wait} (h : sw.limiter = some limiter) (p : Bytes) :
    ∃ calls : List (PacedWriter.Call Unit), PacedWriter.Paced p calls ∧ (sw.write p).1.w = replay sw.w calls ∧
      (sw.write p).1.waits = sw.waits + waitCount calls := by
  have hpaced : sw.paced.limiter = some (waitsFrom sw.waits limiter) := by simp [paced, h]
  obtain ⟨calls, hrun⟩ := PacedWriter.write_run hpaced (p.length + 1) p
  have hmirrors := (write_mirrors sw p (Nat.lt_succ_self p.length)).1
  have hcalls : (sw.paced.write (p.length + 1) p).1.calls = calls := by simpa [paced] using hrun.recorded
  have hreplayed := hmirrors.replayed
  have hwaited := hmirrors.waited
  rw [hcalls] at hreplayed hwaited
  exact ⟨calls, hrun.paced, hreplayed, hwaited⟩

end Mirrors

end StatusWriter

end S3Gateway.S3gw
