import S3Gateway.Library.Machine
import S3Gateway.S3gw.Pacing

/-! # Pacing a request

`countingBody.Read` waits for as many bytes as it has just read.  So over any sequence of reads, as long
as no wait failed, the bytes read are the bytes granted; and a wait that fails is what the read
returns, whatever the body below said. -/

namespace S3Gateway.S3gw

open StatusWriter (waitChunk)
open PacedWriter (Call Outcome Result granted)

variable {ε : Type}

/-! ## The wait for some bytes -/

/-- The loop of `waitBandwidth`, after the given calls. -/
def waitLoop (limiter : List (Call ε) → Nat → Outcome ε) :
    Nat → List (Call ε) → Nat → List (Call ε) × Outcome ε
  | 0, calls, _ => (calls, .ok)
  | turns + 1, calls, n =>
    if 0 < n then
      match limiter calls (min n waitChunk) with
      | .ok => waitLoop limiter turns (calls ++ [.waitN (min n waitChunk) .ok]) (n - min n waitChunk)
      | outcome => (calls ++ [.waitN (min n waitChunk) outcome], outcome)
    else (calls, .ok)

/-- `waitBandwidth(l, ctx, n)`.  A turn is for at least one byte, so `n` turns are enough. -/
def waitBandwidth (limiter : List (Call ε) → Nat → Outcome ε) (calls : List (Call ε)) (n : Nat) :
    List (Call ε) × Outcome ε :=
  waitLoop limiter n calls n

/-- Waits for `n` bytes: the calls they add, and how they end. -/
structure Waits (calls : List (Call ε)) (n : Nat) (out : List (Call ε) × Outcome ε)
    (more : List (Call ε)) : Prop where
  recorded : out.1 = calls ++ more
  bounds : ∀ c ∈ more, c.InBounds
  stops : Journal.StopsAt (fun c => c.outcome ≠ .ok) more
  granted_le : granted more ≤ n
  ended : out.2 = .ok ∧ granted more = n ∧ (∀ c ∈ more, c.outcome = .ok) ∨
    out.2 ≠ .ok ∧ ∃ c ∈ more, c.outcome = out.2

theorem granted_cons (n : Nat) (more : List (Call ε)) :
    granted (.waitN n .ok :: more) = n + granted more := by
  simp [granted, Call.granted]

theorem waits_nil (calls : List (Call ε)) : Waits calls 0 (calls, .ok) [] where
  recorded := (List.append_nil calls).symm
  bounds := by simp
  stops := Journal.stopsAt_of_none (by simp)
  granted_le := Nat.le_refl 0
  ended := .inl ⟨rfl, rfl, by simp⟩

section Wait

variable {calls more : List (Call ε)} {n c : Nat} {out : List (Call ε) × Outcome ε}

theorem Waits.cons (hpos : 0 < c) (hchunk : c ≤ waitChunk) (hle : c ≤ n)
    (h : Waits (calls ++ [.waitN c .ok]) (n - c) out more) : Waits calls n out (.waitN c .ok :: more) where
  recorded := by rw [h.recorded, List.append_assoc, List.singleton_append]
  bounds := List.forall_mem_cons.mpr ⟨⟨hpos, hchunk⟩, h.bounds⟩
  stops := h.stops.cons (by simp [Call.outcome])
  granted_le := by
    have := h.granted_le
    rw [granted_cons]
    omega
  ended := by
    rw [granted_cons]
    rcases h.ended with ⟨hok, hgranted, hall⟩ | ⟨hfailed, d, hd, houtcome⟩
    · exact .inl ⟨hok, by omega, List.forall_mem_cons.mpr ⟨rfl, hall⟩⟩
    · exact .inr ⟨hfailed, d, List.mem_cons_of_mem _ hd, houtcome⟩

theorem waits_refused (hpos : 0 < c) (hchunk : c ≤ waitChunk) {outcome : Outcome ε} (h : outcome ≠ .ok) :
    Waits calls n (calls ++ [.waitN c outcome], outcome) [.waitN c outcome] where
  recorded := rfl
  bounds := List.forall_mem_singleton.mpr ⟨hpos, hchunk⟩
  stops := Journal.stopsAt_singleton _
  granted_le := by
    cases outcome with
    | ok => exact absurd rfl h
    | failed e => simp [granted, Call.granted]
    | panicked v => simp [granted, Call.granted]
  ended := .inr ⟨h, _, List.mem_singleton_self _, rfl⟩

end Wait

theorem waitLoop_waits (limiter : List (Call ε) → Nat → Outcome ε) {turns n : Nat} (h : n ≤ turns)
    (calls : List (Call ε)) : ∃ more, Waits calls n (waitLoop limiter turns calls n) more := by
  induction turns generalizing calls n with
  | zero =>
    obtain rfl : n = 0 := Nat.le_zero.mp h
    exact ⟨[], waits_nil calls⟩
  | succ turns ih =>
    by_cases hn : 0 < n
    · have hpos : 0 < min n waitChunk := Nat.lt_min.mpr ⟨hn, by decide⟩
      have hchunk : min n waitChunk ≤ waitChunk := Nat.min_le_right _ _
      have hle : min n waitChunk ≤ n := Nat.min_le_left _ _
      simp only [waitLoop, if_pos hn]
      cases hwait : limiter calls (min n waitChunk) with
      | ok =>
        obtain ⟨more, hmore⟩ := ih (n := n - min n waitChunk) (by omega)
          (calls ++ [.waitN (min n waitChunk) .ok])
        exact ⟨_, hmore.cons hpos hchunk hle⟩
      | failed e => exact ⟨_, waits_refused hpos hchunk (by simp)⟩
      | panicked v => exact ⟨_, waits_refused hpos hchunk (by simp)⟩
    · obtain rfl : n = 0 := by omega
      simp only [waitLoop, Nat.lt_irrefl, if_false]
      exact ⟨[], waits_nil calls⟩

theorem waitBandwidth_waits (limiter : List (Call ε) → Nat → Outcome ε) (calls : List (Call ε)) (n : Nat) :
    ∃ more, Waits calls n (waitBandwidth limiter calls n) more :=
  waitLoop_waits limiter (Nat.le_refl n) calls

/-! ## The body -/

/-- `countingBody`, over a body that may read any number of bytes. -/
structure CountingBody (ε : Type) where
  n : Nat := 0
  limiter : Option (List (Call ε) → Nat → Outcome ε) := none
  calls : List (Call ε) := []

namespace CountingBody

/-- `b.Read(p)`, where the body below reads `got` bytes and says `err`. -/
def read (b : CountingBody ε) (got : Nat) (err : Option ε) : CountingBody ε × Result ε :=
  let b := { b with n := b.n + got }
  match b.limiter with
  | none => (b, .returned got err)
  | some limiter =>
    if 0 < got then
      match waitBandwidth limiter b.calls got with
      | (calls, .ok) => ({ b with calls }, .returned got err)
      -- a pacing failure outranks what the body below said
      | (calls, .failed werr) => ({ b with calls }, .returned got (some werr))
      | (calls, .panicked v) => ({ b with calls }, .panicked v)
    else (b, .returned got err)

/-- What a read that is paced leaves: the calls of its wait, and what it comes to. -/
structure Reads (b : CountingBody ε) (got : Nat) (err : Option ε) (out : CountingBody ε × Result ε)
    (more : List (Call ε)) : Prop where
  limiter : out.1.limiter = b.limiter
  counted : out.1.n = b.n + got
  recorded : out.1.calls = b.calls ++ more
  bounds : ∀ c ∈ more, c.InBounds
  ended : out.2 = .returned got err ∧ granted more = got ∧ (∀ c ∈ more, c.outcome = .ok) ∨
    ∃ c ∈ more, (∃ werr, c.outcome = .failed werr ∧ out.2 = .returned got (some werr)) ∨
      ∃ v, c.outcome = .panicked v ∧ out.2 = .panicked v

section Read

variable {b : CountingBody ε} {limiter : List (Call ε) → Nat → Outcome ε}

theorem read_reads (h : b.limiter = some limiter) (got : Nat) (err : Option ε) :
    ∃ more, Reads b got err (b.read got err) more := by
  by_cases hgot : 0 < got
  · obtain ⟨more, hwaits⟩ := waitBandwidth_waits limiter b.calls got
    obtain ⟨calls, outcome, hout⟩ : ∃ calls outcome, waitBandwidth limiter b.calls got = (calls, outcome) :=
      ⟨_, _, rfl⟩
    rw [hout] at hwaits
    obtain rfl : calls = b.calls ++ more := hwaits.recorded
    refine ⟨more, ?_⟩
    have hended := hwaits.ended
    simp only [read, h, if_pos hgot, hout]
    cases outcome with
    | ok =>
      obtain ⟨-, hgranted, hall⟩ := hended.resolve_right (by simp)
      exact ⟨h.symm, rfl, rfl, hwaits.bounds, .inl ⟨rfl, hgranted, hall⟩⟩
    | failed werr =>
      obtain ⟨-, c, hc, houtcome⟩ := hended.resolve_left (by simp)
      exact ⟨h.symm, rfl, rfl, hwaits.bounds, .inr ⟨c, hc, .inl ⟨werr, houtcome, rfl⟩⟩⟩
    | panicked v =>
      obtain ⟨-, c, hc, houtcome⟩ := hended.resolve_left (by simp)
      exact ⟨h.symm, rfl, rfl, hwaits.bounds, .inr ⟨c, hc, .inr ⟨v, houtcome, rfl⟩⟩⟩
  · obtain rfl : got = 0 := by omega
    simp only [read, h, Nat.lt_irrefl, if_false]
    exact ⟨[], h.symm, rfl, (List.append_nil _).symm, by simp, .inl ⟨rfl, rfl, by simp⟩⟩

/-- A body after some reads: what it has read was granted, unless a wait failed. -/
structure Kept (b b' : CountingBody ε) (calls : List (Call ε)) : Prop where
  limiter : b'.limiter = b.limiter
  recorded : b'.calls = b.calls ++ calls
  bounds : ∀ c ∈ calls, c.InBounds
  paced : (∀ c ∈ calls, c.outcome = .ok) → b'.n = b.n + granted calls

theorem kept_nil (b : CountingBody ε) : Kept b b [] := ⟨rfl, (List.append_nil _).symm, by simp, fun _ => rfl⟩

theorem Kept.read {b' : CountingBody ε} {calls more : List (Call ε)} {got : Nat} {err : Option ε}
    {out : CountingBody ε × Result ε} (h : Kept b b' calls) (hreads : Reads b' got err out more) :
    Kept b out.1 (calls ++ more) where
  limiter := hreads.limiter.trans h.limiter
  recorded := by rw [hreads.recorded, h.recorded, List.append_assoc]
  bounds := List.forall_mem_append.mpr ⟨h.bounds, hreads.bounds⟩
  paced := by
    intro hok
    obtain ⟨hbefore, hmore⟩ := List.forall_mem_append.mp hok
    have hcount : granted (calls ++ more) = granted calls + granted more := by simp [granted]
    rcases hreads.ended with ⟨-, hgranted, -⟩ | ⟨c, hc, ⟨werr, houtcome, -⟩ | ⟨v, houtcome, -⟩⟩
    · rw [hreads.counted, h.paced hbefore, hcount, hgranted, Nat.add_assoc]
    · rw [hmore c hc] at houtcome
      cases houtcome
    · rw [hmore c hc] at houtcome
      cases houtcome

/-- The body after some reads, each with what the body below read and said. -/
def reads (b : CountingBody ε) (inputs : List (Nat × Option ε)) : CountingBody ε :=
  Machine.after (fun b input => (b.read input.1 input.2).1) b inputs

/-- Over any reads, as long as no wait failed, as many bytes were granted as were read. -/
theorem reads_kept (h : b.limiter = some limiter) (inputs : List (Nat × Option ε)) :
    ∃ calls, Kept b (b.reads inputs) calls := by
  refine Machine.invariant (P := fun _ b' => ∃ calls, Kept b b' calls) ⟨[], kept_nil b⟩ ?_ inputs
  rintro inputs ⟨got, err⟩ ⟨calls, hkept⟩
  obtain ⟨more, hreads⟩ := read_reads (hkept.limiter.trans h) got err
  exact ⟨calls ++ more, hkept.read hreads⟩

end Read

end CountingBody

end S3Gateway.S3gw
