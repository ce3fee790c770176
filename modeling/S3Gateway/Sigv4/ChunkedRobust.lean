import S3Gateway.Library.Machine
import S3Gateway.Sigv4.ChunkedIntegrity

/-! # The aws-chunked decoder on any input

Whatever the stream holds, the counters of the decoder add up to the declared length, an error
stays, and a finite stream comes to one.  Nothing here asks the stream to be well formed. -/

namespace S3Gateway.Sigv4

open Go S3err Fallible

section Framing

variable {r r' : BufReader}

theorem readLineByte_size {sb : Bytes} {x : Bytes ⊕ UInt8} (h : readLineByte sb r = .ok (x, r')) : r'.size ≤ r.size := by
  have hsize := r.readByte_size_le
  unfold readLineByte at h
  rcases hread : r.readByte with ⟨_ | b, r₁⟩
  · rw [hread] at h hsize
    dsimp only at h
    split at h
    · cases h
      exact hsize
    · cases h
  · rw [hread] at h hsize
    cases h
    exact hsize

theorem readLineLoop_size {room : Nat} {sb line : Bytes} (h : readLineLoop room sb r = .ok (line, r')) :
    r'.size ≤ r.size := by
  induction room generalizing sb r with
  | zero =>
    obtain ⟨⟨x, r₁⟩, hbyte, h⟩ := bind_eq_ok.mp h
    have hsize := readLineByte_size hbyte
    cases x with
    | inl line' =>
      cases h
      exact hsize
    | inr b => cases h
  | succ room ih =>
    obtain ⟨⟨x, r₁⟩, hbyte, h⟩ := bind_eq_ok.mp h
    have hsize := readLineByte_size hbyte
    cases x with
    | inl line' =>
      cases h
      exact hsize
    | inr b => exact (ih h).trans hsize

theorem readCRLF_size (h : readCRLF r = .ok r') : r'.size ≤ r.size := by
  have hsize := BufReader.readFullLoop_size_le 2 (r.size + 1) [] r
  unfold readCRLF BufReader.readFull at h
  rcases hread : BufReader.readFullLoop 2 (r.size + 1) [] r with ⟨b, _ | e, r₁⟩
  · rw [hread] at h hsize
    dsimp only at h
    split at h
    · cases h
      exact hsize
    · cases h
  · rw [hread] at h
    cases h

end Framing

/-- Framing is read: the counters stay, and the stream gets no longer. -/
structure Advances (cr cr' : ChunkedReader) : Prop where
  size : cr'.r.size ≤ cr.r.size
  remaining : cr'.remaining = cr.remaining
  undecoded : cr'.undecoded = cr.undecoded
  err : cr'.err = cr.err

theorem Advances.trans {cr₁ cr₂ cr₃ : ChunkedReader} (h : Advances cr₁ cr₂) (h' : Advances cr₂ cr₃) : Advances cr₁ cr₃ :=
  ⟨h'.size.trans h.size, h'.remaining.trans h.remaining, h'.undecoded.trans h.undecoded, h'.err.trans h.err⟩

section Advances

variable [Unicode] {p : ChunkParams} {cr cr' : ChunkedReader}

omit [Unicode] in
theorem readChunkHeader_advances {size : Int} (h : readChunkHeader p cr = .ok (size, cr')) :
    Advances cr cr' ∧ 0 ≤ size := by
  unfold readChunkHeader at h
  cases hread : readLine cr.r with
  | error e =>
    rw [hread] at h
    cases h
  | ok lr =>
    obtain ⟨line, r⟩ := lr
    rw [hread] at h
    obtain ⟨⟨size', sig⟩, hparse, h⟩ := bind_eq_ok.mp h
    cases h
    exact ⟨⟨readLineLoop_size hread, rfl, rfl, rfl⟩, parseChunkHeader_size hparse⟩

omit [Unicode] in
theorem verifyChunk_advances (h : verifyChunk p cr = .ok cr') : Advances cr cr' := by
  obtain ⟨-, rfl⟩ := verifyChunk_ok h
  split
  · exact ⟨Nat.le_refl _, rfl, rfl, rfl⟩
  · exact ⟨Nat.le_refl _, rfl, rfl, rfl⟩

theorem trailersLoop_advances {fuel : Nat} (h : trailersLoop p fuel cr = .ok cr') : Advances cr cr' := by
  induction fuel generalizing cr with
  | zero => cases h
  | succ fuel ih =>
    cases trailersLoop_turn h with
    | eof _ _ hsame | blank _ _ hsame =>
      rw [hsame]
      exact ⟨Nat.le_refl _, rfl, rfl, rfl⟩
    | @found _ r _ hread _ _ _ hrest =>
      have hline : Advances cr { cr with r, ckSeen := true } := ⟨readLineLoop_size hread, rfl, rfl, rfl⟩
      exact hline.trans (ih hrest)
    | @skip _ r hread _ _ hrest =>
      have hline : Advances cr { cr with r } := ⟨readLineLoop_size hread, rfl, rfl, rfl⟩
      exact hline.trans (ih hrest)

theorem discardTrailers_advances (h : discardTrailers p cr = .ok cr') : Advances cr cr' := by
  unfold discardTrailers at h
  split at h
  · cases hread : readCRLF cr.r with
    | error e =>
      rw [hread] at h
      cases h
      exact ⟨Nat.le_refl _, rfl, rfl, rfl⟩
    | ok r =>
      rw [hread] at h
      cases h
      exact ⟨readCRLF_size hread, rfl, rfl, rfl⟩
  · exact trailersLoop_advances h

theorem closing_advances {cr₁ cr₂ : ChunkedReader} (hverify : verifyChunk p cr = .ok cr₁)
    (htrailers : discardTrailers p cr₁ = .ok cr₂) : Advances cr { cr₂ with eof := true } :=
  ((verifyChunk_advances hverify).trans (discardTrailers_advances htrailers)).trans ⟨Nat.le_refl _, rfl, rfl, rfl⟩

theorem readTerminal_advances (h : readTerminal p cr = .ok cr') : Advances cr cr' := by
  obtain ⟨r, hcrlf, h⟩ := bind_eq_ok.mp h
  obtain ⟨⟨size, cr₁⟩, hheader, h⟩ := bind_eq_ok.mp h
  have hfirst : Advances cr { cr with r } := ⟨readCRLF_size hcrlf, rfl, rfl, rfl⟩
  dsimp only at h
  split at h
  · cases h
  · obtain ⟨cr₂, hverify, h⟩ := bind_eq_ok.mp h
    obtain ⟨cr₃, htrailers, h⟩ := bind_eq_ok.mp h
    cases h
    exact (hfirst.trans (readChunkHeader_advances hheader).1).trans (closing_advances hverify htrailers)

omit [Unicode] in
theorem endChunk_advances (h : endChunk cr = .ok cr') : Advances cr cr' := by
  unfold endChunk at h
  split at h
  · cases hread : readCRLF cr.r with
    | error e =>
      rw [hread] at h
      cases h
    | ok r =>
      rw [hread] at h
      cases h
      exact ⟨readCRLF_size hread, rfl, rfl, rfl⟩
  · cases h
    exact ⟨Nat.le_refl _, rfl, rfl, rfl⟩

theorem finishChunk_advances (h : finishChunk p cr = .ok cr') : Advances cr cr' := by
  obtain ⟨cr₁, hverify, h⟩ := bind_eq_ok.mp h
  split at h
  · exact (verifyChunk_advances hverify).trans (readTerminal_advances h)
  · cases h
    exact verifyChunk_advances hverify

/-- A chunk header moves the size of its chunk from one counter to the other, or ends the stream. -/
theorem nextChunk_counts (h : nextChunk p cr = .ok cr') :
    cr'.r.size ≤ cr.r.size ∧ cr'.err = cr.err ∧
      (cr'.eof = true ∧ cr'.remaining = cr.remaining ∧ cr'.undecoded = cr.undecoded ∨
        0 < cr'.remaining ∧ 0 ≤ cr'.undecoded ∧ cr'.remaining + cr'.undecoded = cr.undecoded) := by
  obtain ⟨cr₁, hend, h⟩ := bind_eq_ok.mp h
  obtain ⟨⟨size, cr₂⟩, hheader, h⟩ := bind_eq_ok.mp h
  obtain ⟨hheader, hsize⟩ := readChunkHeader_advances hheader
  -- neither the end of a chunk nor a header line moves the counters
  have hboth := (endChunk_advances hend).trans hheader
  dsimp only at h
  split at h
  · cases h
  · rename_i hfits
    split at h
    · rename_i hzero
      obtain ⟨cr₃, hverify, h⟩ := bind_eq_ok.mp h
      split at h
      · cases h
      · obtain ⟨cr₄, htrailers, h⟩ := bind_eq_ok.mp h
        cases h
        have hstart : Advances cr₂ { cr₂ with started := true, undecoded := cr₂.undecoded - size } :=
          ⟨Nat.le_refl _, rfl, by simp [hzero], rfl⟩
        have hall := (hboth.trans hstart).trans (closing_advances hverify htrailers)
        exact ⟨hall.size, hall.err, .inl ⟨rfl, hall.remaining, hall.undecoded⟩⟩
    · rename_i hpos
      cases h
      have hundecoded := hboth.undecoded
      refine ⟨hboth.size, hboth.err, .inr ⟨?_, ?_, ?_⟩⟩
      all_goals dsimp only
      all_goals omega

end Advances

/-! ## One call -/

/-- The counters after `delivered` bytes: they add up to the declared length, or to less after an
    error that came with bytes withheld. -/
structure Counters (declared : Int) (delivered : Nat) (cr : ChunkedReader) : Prop where
  remaining : 0 ≤ cr.remaining
  undecoded : 0 ≤ cr.undecoded
  atMost : delivered + cr.remaining + cr.undecoded ≤ declared
  balanced : cr.err = none → delivered + cr.remaining + cr.undecoded = declared

section Calls

variable [Unicode] {p : ChunkParams} {cr cr' : ChunkedReader} {declared : Int} {delivered n : Nat} {d : Bytes}
  {e : Option ReadError}

omit [Unicode] in
theorem Counters.advances (hc : Counters declared delivered cr) (h : Advances cr cr') : Counters declared delivered cr' where
  remaining := h.remaining ▸ hc.remaining
  undecoded := h.undecoded ▸ hc.undecoded
  atMost := by
    rw [h.remaining, h.undecoded]
    exact hc.atMost
  balanced herr := by
    rw [h.remaining, h.undecoded]
    exact hc.balanced (h.err ▸ herr)

omit [Unicode] in
theorem Counters.fail (hc : Counters declared delivered cr) {fewer : Nat} (hle : fewer ≤ delivered) (err : ReadError) :
    Counters declared fewer { cr with err := some err } where
  remaining := hc.remaining
  undecoded := hc.undecoded
  atMost := by
    have := hc.atMost
    dsimp only
    omega
  balanced herr := by cases herr

omit [Unicode] in
theorem Counters.afterData (hc : Counters declared delivered cr) {e : Option StreamError} {r : BufReader}
    (hread : cr.r.read (min n cr.remaining.toNat) = (d, e, r)) :
    Counters declared (delivered + d.length) (afterData p cr r d) := by
  have hlen := read_length_le hread
  have hremaining := hc.remaining
  have hsum : ((delivered + d.length : Nat) : Int) + (cr.remaining - d.length) = delivered + cr.remaining := by
    push_cast
    ring
  refine ⟨?_, hc.undecoded, ?_, fun herr => ?_⟩
  · dsimp only [Sigv4.afterData]
    omega
  · dsimp only [Sigv4.afterData]
    rw [hsum]
    exact hc.atMost
  · dsimp only [Sigv4.afterData]
    rw [hsum]
    exact hc.balanced herr

theorem Counters.delivers (hc : Counters declared delivered cr) (h : Delivers p n cr d e cr') :
    Counters declared (delivered + d.length) cr' := by
  cases h with
  | finished hread _ hfinish => exact (hc.afterData hread).advances (finishChunk_advances hfinish)
  | more hread => exact hc.afterData hread
  | failed hread => exact (hc.afterData hread).fail (Nat.le_refl _) _
  -- the bytes of a rejected chunk were counted and are not handed out
  | rejected hread => exact (hc.afterData hread).fail (Nat.le_add_right _ _) _

theorem Counters.nextChunk (hc : Counters declared delivered cr) (hzero : cr.remaining = 0)
    (h : nextChunk p cr = .ok cr') : Counters declared delivered cr' := by
  obtain ⟨-, herr, ⟨-, hremaining, hundecoded⟩ | ⟨hpos, hnonneg, hsum⟩⟩ := nextChunk_counts h
  · refine ⟨hremaining ▸ hc.remaining, hundecoded ▸ hc.undecoded, ?_, fun hnone => ?_⟩
    · rw [hremaining, hundecoded]
      exact hc.atMost
    · rw [hremaining, hundecoded]
      exact hc.balanced (herr ▸ hnone)
  · -- the size has moved from `undecoded` to `remaining`, which was zero
    have hatMost := hc.atMost
    refine ⟨by omega, hnonneg, by omega, fun hnone => ?_⟩
    have hbalanced := hc.balanced (herr ▸ hnone)
    omega

theorem Counters.read (hc : Counters declared delivered cr) (h : cr.read p n = (d, e, cr')) :
    Counters declared (delivered + d.length) cr' := by
  cases reads_as h with
  | again => exact hc
  | ended => exact hc
  | stopped => exact hc.fail (Nat.le_refl _) _
  | closed _ _ hzero hnext => exact hc.nextChunk hzero hnext
  | opened _ _ hzero hnext _ hdelivers => exact (hc.nextChunk hzero hnext).delivers hdelivers
  | within _ _ _ hdelivers => exact hc.delivers hdelivers

/-- The reader has returned `err` and keeps to it. -/
def Stuck (err : ReadError) (cr : ChunkedReader) : Prop :=
  cr.err = some err ∨ err = .io .eof ∧ cr.err = none ∧ cr.eof = true

theorem Stuck.read {err : ReadError} (hs : Stuck err cr) (n : Nat) : cr.read p n = ([], some err, cr) := by
  rcases hs with herr | ⟨rfl, herr, heof⟩
  · simp [ChunkedReader.read, herr]
  · simp [ChunkedReader.read, herr, heof]

theorem Delivers.err (h : Delivers p n cr d e cr') (herr : cr.err = none) : cr'.err = e := by
  cases h with
  | finished _ _ hfinish => exact (finishChunk_advances hfinish).err.trans herr
  | more => exact herr
  | failed => rfl
  | rejected => rfl

theorem stuck_of_read {err : ReadError} (h : cr.read p n = (d, some err, cr')) : Stuck err cr' := by
  cases reads_as h with
  | again herr => exact .inl herr
  | ended herr heof => exact .inr ⟨rfl, herr, heof⟩
  | stopped => exact .inl rfl
  | closed herr _ _ hnext hend => exact .inr ⟨rfl, (nextChunk_counts hnext).2.1.trans herr, hend⟩
  | opened herr _ _ hnext _ hdelivers => exact .inl (hdelivers.err ((nextChunk_counts hnext).2.1.trans herr))
  | within herr _ _ hdelivers => exact .inl (hdelivers.err herr)

theorem err_of_read (h : cr.read p n = (d, none, cr')) : cr'.err = none := by
  cases reads_as h with
  | opened herr _ _ hnext _ hdelivers => exact hdelivers.err ((nextChunk_counts hnext).2.1.trans herr)
  | within herr _ _ hdelivers => exact hdelivers.err herr

theorem Delivers.size_lt (h : Delivers p n cr d none cr') (hn : 0 < n) (hpos : 0 < cr.remaining) :
    cr'.r.size < cr.r.size := by
  have hstep := BufReader.readStep cr.r (min n cr.remaining.toNat)
  cases h with
  | @finished _ e r _ hread hzero hfinish =>
    rw [hread] at hstep
    have hsize := hstep.size_add_le
    have hkept := (finishChunk_advances hfinish).size
    -- the last bytes of the chunk came with this call
    dsimp only [Sigv4.afterData] at hzero hkept hsize
    omega
  | @more _ e r hread hmore hquiet =>
    have hlen := read_length_le hread
    rw [hread] at hstep
    have hopen : 0 < (Sigv4.afterData p cr r d).remaining := by
      dsimp only [Sigv4.afterData] at hmore ⊢
      omega
    exact hstep.size_lt (hquiet hopen) (by omega)

theorem read_size_lt (hc : Counters declared delivered cr) (hn : 0 < n) (h : cr.read p n = (d, none, cr')) :
    cr'.r.size < cr.r.size := by
  cases reads_as h with
  | within _ _ hmore hdelivers =>
    have hremaining := hc.remaining
    exact hdelivers.size_lt hn (by omega)
  | opened _ _ _ hnext hopen hdelivers =>
    obtain ⟨hsize, -, ⟨hend, -⟩ | ⟨hpos, -⟩⟩ := nextChunk_counts hnext
    · cases hopen.symm.trans hend
    · exact (hdelivers.size_lt hn hpos).trans_le hsize

end Calls

/-! ## Whole runs -/

section Runs

variable [Unicode] (p : ChunkParams)

/-- The reader after calls with buffers of these sizes. -/
def ChunkedReader.after : ChunkedReader → List Nat → ChunkedReader
  | cr, [] => cr
  | cr, n :: sizes => ChunkedReader.after (cr.read p n).2.2 sizes

/-- What the decoder owes its caller, whatever it reads. -/
structure Robust (declared : Int) (cr : ChunkedReader) : Prop where
  balanced : ∀ sizes, (∀ o ∈ cr.reads p sizes, o.2 = none) →
    (((cr.reads p sizes).flatMap (·.1)).length : Int) + (cr.after p sizes).remaining + (cr.after p sizes).undecoded = declared
  remaining : ∀ sizes, 0 ≤ (cr.after p sizes).remaining ∧ (cr.after p sizes).remaining < 2 ^ 63
  undecoded : ∀ sizes, 0 ≤ (cr.after p sizes).undecoded ∧ (cr.after p sizes).undecoded < 2 ^ 63
  atMost : ∀ sizes, (((cr.reads p sizes).flatMap (·.1)).length : Int) ≤ declared
  stuck : ∀ sizes before d err after, cr.reads p sizes = before ++ (d, some err) :: after → ∀ o ∈ after, o = ([], some err)
  ends : ∀ sizes : Nat → Nat, (∀ k, 0 < sizes k) → ∃ k, ∃ o ∈ cr.reads p ((List.range k).map sizes), o.2 ≠ none

variable {p} {cr : ChunkedReader} {declared : Int} {delivered : Nat}

theorem reads_cons {n : Nat} {d : Bytes} {e : Option ReadError} {cr' : ChunkedReader} (h : cr.read p n = (d, e, cr'))
    (sizes : List Nat) : cr.reads p (n :: sizes) = (d, e) :: cr'.reads p sizes := by
  simp only [ChunkedReader.reads, h]

theorem after_cons {n : Nat} {d : Bytes} {e : Option ReadError} {cr' : ChunkedReader} (h : cr.read p n = (d, e, cr'))
    (sizes : List Nat) : cr.after p (n :: sizes) = cr'.after p sizes := by
  simp only [ChunkedReader.after, h]

theorem Counters.reads (hc : Counters declared delivered cr) (sizes : List Nat) :
    Counters declared (delivered + ((cr.reads p sizes).flatMap (·.1)).length) (cr.after p sizes) := by
  induction sizes generalizing cr delivered with
  | nil => exact hc
  | cons n sizes ih =>
    rcases hread : cr.read p n with ⟨d, e, cr'⟩
    rw [reads_cons hread, after_cons hread, List.flatMap_cons, List.length_append, ← Nat.add_assoc]
    exact ih (hc.read hread)

theorem err_of_reads {sizes : List Nat} (herr : cr.err = none) (hok : ∀ o ∈ cr.reads p sizes, o.2 = none) :
    (cr.after p sizes).err = none := by
  induction sizes generalizing cr with
  | nil => exact herr
  | cons n sizes ih =>
    rcases hread : cr.read p n with ⟨d, e, cr'⟩
    rw [reads_cons hread, List.forall_mem_cons] at hok
    obtain ⟨rfl, hrest⟩ := hok
    rw [after_cons hread]
    exact ih (err_of_read hread) hrest

theorem Stuck.reads {err : ReadError} (hs : Stuck err cr) (sizes : List Nat) :
    ∀ o ∈ cr.reads p sizes, o = ([], some err) := by
  induction sizes with
  | nil => exact List.forall_mem_nil _
  | cons n sizes ih =>
    rw [reads_cons (hs.read n)]
    exact List.forall_mem_cons.mpr ⟨rfl, ih⟩

theorem reads_stuck {sizes : List Nat} {before after : List (Bytes × Option ReadError)} {d : Bytes} {err : ReadError}
    (h : cr.reads p sizes = before ++ (d, some err) :: after) : ∀ o ∈ after, o = ([], some err) := by
  induction sizes generalizing cr before with
  | nil => simp [ChunkedReader.reads] at h
  | cons n sizes ih =>
    rcases hread : cr.read p n with ⟨d', e, cr'⟩
    rw [reads_cons hread] at h
    cases before with
    | nil =>
      obtain ⟨hfirst, rfl⟩ := List.cons.inj h
      cases hfirst
      exact (stuck_of_read hread).reads sizes
    | cons o before => exact ih (List.cons.inj h).2

theorem reads_end (hc : Counters declared delivered cr) {sizes : Nat → Nat} (hsizes : ∀ k, 0 < sizes k) :
    ∃ k, ∃ o ∈ cr.reads p ((List.range k).map sizes), o.2 ≠ none := by
  induction hsize : cr.r.size using Nat.strong_induction_on generalizing cr delivered sizes with
  | _ size ih =>
    rcases hread : cr.read p (sizes 0) with ⟨d, e, cr'⟩
    cases e with
    | some err =>
      refine ⟨1, (d, some err), ?_, by simp⟩
      rw [show (List.range 1).map sizes = [sizes 0] from rfl, reads_cons hread]
      exact List.mem_cons_self
    | none =>
      have hless : cr'.r.size < size := hsize ▸ read_size_lt hc (hsizes 0) hread
      obtain ⟨k, o, ho, hne⟩ := ih _ hless (hc.read hread) (fun k => hsizes (k + 1)) rfl
      refine ⟨k + 1, o, ?_, hne⟩
      rw [Machine.map_range_succ, reads_cons hread]
      exact List.mem_cons_of_mem _ ho

/-- For every stream, every declared length that is an `int64` and not negative, every mode and every
    sequence of calls. -/
theorem chunkedReader_robust (p : ChunkParams) (vr : Verified) (body : Source) {decodedLength : Int}
    (hlow : 0 ≤ decodedLength) (hhigh : decodedLength < 2 ^ 63) :
    Robust p decodedLength (newChunkedReader p vr body decodedLength) := by
  have hstart : Counters decodedLength 0 (newChunkedReader p vr body decodedLength) :=
    ⟨Int.le_refl 0, hlow, by simp [newChunkedReader], fun _ => by simp [newChunkedReader]⟩
  have hcounters := fun sizes => hstart.reads (p := p) sizes
  simp only [Nat.zero_add] at hcounters
  refine ⟨fun sizes hok => ?_, fun sizes => ?_, fun sizes => ?_, fun sizes => ?_, ?_, fun sizes hsizes => ?_⟩
  · exact (hcounters sizes).balanced (err_of_reads rfl hok)
  · obtain ⟨hremaining, hundecoded, hatMost, -⟩ := hcounters sizes
    exact ⟨hremaining, by omega⟩
  · obtain ⟨hremaining, hundecoded, hatMost, -⟩ := hcounters sizes
    exact ⟨hundecoded, by omega⟩
  · obtain ⟨hremaining, hundecoded, hatMost, -⟩ := hcounters sizes
    omega
  · exact fun sizes before d err after h => reads_stuck h
  · exact reads_end hstart hsizes

end Runs

/-- A stream whose second chunk claims more than is left of the declared length. -/
def greedyBody : Source where
  fragments := [str "3;chunk-signature=01\r\na", str "bc\r\n7fffffffffffffff;chunk-signature=01\r\nd"]
  final := .eof
  finalWithData := false

/-- Its first chunk is delivered, and then the same error again and again. -/
theorem greedyBody_robust :
    let _ := asciiTables
    let p := chunkParams plainCrypto (fun _ => some id) (fun _ => str "date") trailerVerified (str "crc32")
    Robust p 5 (newChunkedReader p trailerVerified greedyBody 5) ∧
      (newChunkedReader p trailerVerified greedyBody 5).reads p [2, 2, 2, 2] =
        [(str "a", none), (str "bc", none), ([], some (.chunkTooLarge (2 ^ 63 - 1) 2)),
          ([], some (.chunkTooLarge (2 ^ 63 - 1) 2))] := by
  intro _ p
  exact ⟨chunkedReader_robust p trailerVerified greedyBody (by decide) (by decide), by decide +kernel⟩

end S3Gateway.Sigv4
