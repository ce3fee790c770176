import S3Gateway.Sigv4.Chunked

/-! # What the aws-chunked decoder has checked

The bytes a body may consist of are described apart from the reader: chunks under a chain
of signatures, a terminal chunk, trailers.  Between two calls the reader stands inside such
a stream, and what is left decides how it can go on; by the time the declared length has
been delivered, or the end reported, the whole stream has been seen. -/

namespace S3Gateway.Sigv4

open Go S3err Fallible

/-! ## Streams -/

/-- A line at the start of a stream, without its line end, and what follows it; the last
    line may lack the line end. -/
inductive FramingLine : Bytes → Bytes → Bytes → Prop
  | ended {text rest : Bytes} (htext : ch '\n' ∉ text) :
    FramingLine (text ++ ch '\n' :: rest) (trimLineEnd text) rest
  | atEnd {text : Bytes} (htext : ch '\n' ∉ text) (hne : text ≠ []) :
    FramingLine text (trimLineEnd text) []

/-- The trailer lines of a stream, up to an empty one or its end. -/
inductive Trailers : Bytes → List Bytes → Prop
  | none : Trailers [] []
  | blank {stream rest : Bytes} (hline : FramingLine stream [] rest) : Trailers stream []
  | line {stream line rest : Bytes} {lines : List Bytes} (hline : FramingLine stream line rest)
    (hne : line ≠ []) (hrest : Trailers rest lines) : Trailers stream (line :: lines)

theorem FramingLine.length_lt {stream line rest : Bytes} (h : FramingLine stream line rest) :
    rest.length < stream.length := by
  cases h with
  | ended =>
    rw [List.length_append, List.length_cons]
    omega
  | atEnd _ hne => exact List.length_pos_iff.mpr hne

section Streams

variable [Unicode] (p : ChunkParams) (payload : Bytes)

/-- A declared checksum is among the trailers, and every trailer of its name has the
    checksum of the payload. -/
def ChecksumVerified (stream : Bytes) : Prop :=
  ∀ checksum, p.checksum = some checksum →
    ∃ lines, Trailers stream lines ∧
      (∃ line ∈ lines, checksumTrailer p line = some (checksum payload)) ∧
      ∀ line ∈ lines, ∀ value, checksumTrailer p line = some value → value = checksum payload

/-- A stream whose chunks hold the data, under signatures chained from `prev`, and whose
    trailers are those of the payload. -/
inductive ChunkStream : Bytes → Bytes → Bytes → Prop
  | data {prev stream line sig d rest tail : Bytes}
    (hline : FramingLine stream line (d ++ str "\r\n" ++ rest))
    (hheader : parseChunkHeader p.signed line = .ok ((d.length : Int), sig)) (hne : d ≠ [])
    (hsig : p.signed = true → sig = chunkSignature p prev d)
    (hrest : ChunkStream sig rest tail) : ChunkStream prev stream (d ++ tail)
  | terminal {prev stream line sig rest : Bytes} (hline : FramingLine stream line rest)
    (hheader : parseChunkHeader p.signed line = .ok (0, sig))
    (hsig : p.signed = true → sig = chunkSignature p prev [])
    (htrailers : ChecksumVerified p payload rest) : ChunkStream prev stream []

variable {p payload}

theorem ChunkStream.unsigned {prev prev' stream data : Bytes}
    (h : ChunkStream p payload prev stream data) (hp : p.signed = true → prev' = prev) :
    ChunkStream p payload prev' stream data := by
  cases h with
  | data hline hheader hne hsig hrest =>
    exact .data hline hheader hne (fun hs => by rw [hp hs]; exact hsig hs) hrest
  | terminal hline hheader hsig htrailers =>
    exact .terminal hline hheader (fun hs => by rw [hp hs]; exact hsig hs) htrailers

end Streams

/-! ## Framing -/

section Framing

variable {r r' : BufReader}

theorem readLineByte_line {sb line : Bytes} (hr : r.EndsLast) (hsb : ch '\n' ∉ sb)
    (h : readLineByte sb r = .ok (.inl line, r')) :
    FramingLine (sb ++ r.rest) line r'.rest ∧ r'.EndsLast := by
  unfold readLineByte at h
  rcases hread : r.readByte with ⟨e | b, r₁⟩
  · rw [hread] at h
    obtain ⟨hrest, hends, heof⟩ := BufReader.readByte_error hread hr
    dsimp only at h
    split at h
    · rename_i hlast
      cases h
      rw [hrest, heof hlast.1, List.append_nil]
      exact ⟨.atEnd hsb hlast.2, hends⟩
    · cases h
  · rw [hread] at h
    obtain ⟨hrest, hends⟩ := BufReader.readByte_ok hread hr
    simp only [Except.ok.injEq, Prod.mk.injEq] at h
    obtain ⟨hline, rfl⟩ := h
    split at hline
    · rename_i hnewline
      cases hline
      rw [hrest, hnewline]
      exact ⟨.ended hsb, hends⟩
    · cases hline

theorem readLineByte_byte {sb : Bytes} {b : UInt8} (hr : r.EndsLast)
    (h : readLineByte sb r = .ok (.inr b, r')) :
    r.rest = b :: r'.rest ∧ b ≠ ch '\n' ∧ r'.EndsLast := by
  unfold readLineByte at h
  rcases hread : r.readByte with ⟨e | b', r₁⟩
  · rw [hread] at h
    dsimp only at h
    split at h <;> cases h
  · rw [hread] at h
    obtain ⟨hrest, hends⟩ := BufReader.readByte_ok hread hr
    simp only [Except.ok.injEq, Prod.mk.injEq] at h
    obtain ⟨hbyte, rfl⟩ := h
    split at hbyte
    · cases hbyte
    · rename_i hnewline
      cases hbyte
      exact ⟨hrest, hnewline, hends⟩

theorem readLineByte_eof {sb : Bytes} (hr : r.EndsLast)
    (h : readLineByte sb r = .error (.io .eof)) : sb = [] ∧ r.rest = [] := by
  unfold readLineByte at h
  rcases hread : r.readByte with ⟨e | b', r₁⟩
  · rw [hread] at h
    obtain ⟨-, -, heof⟩ := BufReader.readByte_error hread hr
    dsimp only at h
    split at h
    · cases h
    · rename_i hnot
      cases h
      exact ⟨by simpa using hnot, heof rfl⟩
  · rw [hread] at h
    cases h

theorem readLineLoop_ok {room : Nat} {sb line : Bytes} (hr : r.EndsLast) (hsb : ch '\n' ∉ sb)
    (h : readLineLoop room sb r = .ok (line, r')) :
    FramingLine (sb ++ r.rest) line r'.rest ∧ r'.EndsLast := by
  induction room generalizing sb r with
  | zero =>
    rw [readLineLoop, bind_eq_ok] at h
    obtain ⟨⟨line' | b, r₁⟩, hbyte, h⟩ := h
    · cases h
      exact readLineByte_line hr hsb hbyte
    · cases h
  | succ room ih =>
    rw [readLineLoop, bind_eq_ok] at h
    obtain ⟨⟨line' | b, r₁⟩, hbyte, h⟩ := h
    · cases h
      exact readLineByte_line hr hsb hbyte
    · obtain ⟨hrest, hnewline, hends⟩ := readLineByte_byte hr hbyte
      have hnext := ih hends (by simp [hsb, Ne.symm hnewline]) h
      rwa [hrest, List.append_cons]

theorem readLineLoop_eof {room : Nat} {sb : Bytes} (hr : r.EndsLast)
    (h : readLineLoop room sb r = .error (.io .eof)) : sb = [] ∧ r.rest = [] := by
  -- on the room left in the line: the end comes as an error only before its first byte
  induction room generalizing sb r with
  | zero =>
    rw [readLineLoop] at h
    cases hbyte : readLineByte sb r with
    | error e =>
      rw [hbyte] at h
      cases h
      exact readLineByte_eof hr hbyte
    | ok step =>
      rw [hbyte] at h
      obtain ⟨line | b, r₁⟩ := step <;> cases h
  | succ room ih =>
    rw [readLineLoop] at h
    cases hbyte : readLineByte sb r with
    | error e =>
      rw [hbyte] at h
      cases h
      exact readLineByte_eof hr hbyte
    | ok step =>
      rw [hbyte] at h
      obtain ⟨line | b, r₁⟩ := step
      · cases h
      · obtain ⟨-, -, hends⟩ := readLineByte_byte hr hbyte
        obtain ⟨hnil, -⟩ := ih hends h
        simp at hnil

theorem readLine_ok {line : Bytes} (hr : r.EndsLast) (h : readLine r = .ok (line, r')) :
    FramingLine r.rest line r'.rest ∧ r'.EndsLast :=
  readLineLoop_ok hr List.not_mem_nil h

theorem readLine_eof (hr : r.EndsLast) (h : readLine r = .error (.io .eof)) : r.rest = [] :=
  (readLineLoop_eof hr h).2

theorem readCRLF_ok (hr : r.EndsLast) (h : readCRLF r = .ok r') :
    r.rest = str "\r\n" ++ r'.rest ∧ r'.EndsLast := by
  unfold readCRLF at h
  rcases hread : r.readFull 2 with ⟨got, e | e, r₁⟩
  · rw [hread] at h
    obtain ⟨-, hrest, hends⟩ := BufReader.readFull_ok hr hread
    dsimp only at h
    split at h
    · rename_i hcrlf
      cases h
      rw [hrest, hcrlf]
      exact ⟨rfl, hends⟩
    · cases h
  · rw [hread] at h
    cases h

theorem readCRLF_ne_eof : readCRLF r ≠ .error (.io .eof) := by
  unfold readCRLF
  split
  · intro h
    cases h
  · split <;> (intro h; cases h)

end Framing

/-! ## The parts of a stream -/

section Parts

variable [Unicode] {p : ChunkParams} {cr cr' : ChunkedReader}

omit [Unicode] in
theorem parseChunkHeader_size {signed : Bool} {line sig : Bytes} {size : Int}
    (h : parseChunkHeader signed line = .ok (size, sig)) : 0 ≤ size := by
  unfold parseChunkHeader at h
  simp only [bind_eq_ok] at h
  obtain ⟨n, hsize, sig', -, h⟩ := h
  unfold parseChunkSize at hsize
  have hn : 0 ≤ n := by
    split at hsize
    · split at hsize
      · cases hsize
      · cases hsize
        omega
    · cases hsize
  split at h
  · cases h
  · cases h
    exact hn

omit [Unicode] in
theorem parseChunkHeader_ne_eof {signed : Bool} {line : Bytes} :
    parseChunkHeader signed line ≠ .error (.io .eof) := by
  have hsize : ∀ s, parseChunkSize s ≠ .error (.io .eof) := by
    intro s
    unfold parseChunkSize
    split
    · split <;> nofun
    · nofun
  have hext : ∀ ext hasExt, parseChunkExtension ext hasExt ≠ .error (.io .eof) := by
    intro ext hasExt
    unfold parseChunkExtension
    dsimp only
    split
    · nofun
    · split <;> nofun
  unfold parseChunkHeader
  refine bind_ne_error (hsize _) fun size _ => bind_ne_error (hext _ _) fun sig _ => ?_
  split <;> nofun

omit [Unicode] in
theorem readChunkHeader_ok {size : Int} (hr : cr.r.EndsLast)
    (h : readChunkHeader p cr = .ok (size, cr')) :
    ∃ line r sig, FramingLine cr.r.rest line r.rest ∧ r.EndsLast ∧
      parseChunkHeader p.signed line = .ok (size, sig) ∧ cr' = { cr with r, chunkSig := sig } := by
  unfold readChunkHeader at h
  cases hread : readLine cr.r with
  | error e =>
    rw [hread] at h
    cases h
  | ok lr =>
    obtain ⟨line, r⟩ := lr
    rw [hread] at h
    obtain ⟨⟨size', sig⟩, hparse, h⟩ := bind_eq_ok.mp h
    cases h
    obtain ⟨hline, hends⟩ := readLine_ok hr hread
    exact ⟨line, r, sig, hline, hends, hparse, rfl⟩

omit [Unicode] in
theorem verifyChunk_ok (h : verifyChunk p cr = .ok cr') :
    (p.signed = true → cr.chunkSig = chunkSignature p cr.prevSig cr.chunkData) ∧
      cr' = if p.signed then { cr with prevSig := cr.chunkSig, chunkData := [] } else cr := by
  unfold verifyChunk at h
  cases hsigned : p.signed with
  | false =>
    rw [hsigned] at h
    cases h
    exact ⟨nofun, rfl⟩
  | true =>
    rw [hsigned] at h
    simp only [Bool.not_true, Bool.false_eq_true, if_false, ne_eq, ite_not] at h
    split at h
    · rename_i hsig
      cases h
      exact ⟨fun _ => hsig.symm, rfl⟩
    · cases h

omit [Unicode] in
theorem verifyChunk_undecoded (h : verifyChunk p cr = .ok cr') : cr'.undecoded = cr.undecoded := by
  obtain ⟨-, hcr'⟩ := verifyChunk_ok h
  rw [hcr']
  split <;> rfl

/-- Trailer lines that show the checksum of the data, unless it was seen before them. -/
def TrailersShow (p : ChunkParams) (data : Bytes) (seen : Bool) (lines : List Bytes) : Prop :=
  ∀ checksum, p.checksum = some checksum →
    (seen = true ∨ ∃ line ∈ lines, checksumTrailer p line = some (checksum data)) ∧
      ∀ line ∈ lines, ∀ value, checksumTrailer p line = some value → value = checksum data

theorem TrailersShow.nil {data : Bytes} {seen : Bool}
    (h : ¬(p.checksum.isSome && !seen) = true) : TrailersShow p data seen [] := by
  intro checksum hchecksum
  refine ⟨.inl ?_, nofun⟩
  simpa [hchecksum] using h

theorem TrailersShow.skip {data line : Bytes} {seen : Bool} {lines : List Bytes}
    (h : TrailersShow p data seen lines)
    (hline : ∀ checksum value, p.checksum = some checksum → checksumTrailer p line ≠ some value) :
    TrailersShow p data seen (line :: lines) := by
  intro checksum hchecksum
  obtain ⟨hfound, hall⟩ := h checksum hchecksum
  constructor
  · exact hfound.imp_right fun ⟨l, hl, htrailer⟩ => ⟨l, List.mem_cons_of_mem _ hl, htrailer⟩
  · intro l hl value htrailer
    rcases List.mem_cons.mp hl with rfl | hl
    · exact absurd htrailer (hline checksum value hchecksum)
    · exact hall l hl value htrailer

theorem TrailersShow.found {data line : Bytes} {seen : Bool} {lines : List Bytes}
    {checksum : Bytes → Bytes} (h : TrailersShow p data true lines)
    (hchecksum : p.checksum = some checksum)
    (hline : checksumTrailer p line = some (checksum data)) :
    TrailersShow p data seen (line :: lines) := by
  intro checksum' hchecksum'
  rw [hchecksum] at hchecksum'
  cases hchecksum'
  refine ⟨.inr ⟨line, List.mem_cons_self, hline⟩, fun l hl value htrailer => ?_⟩
  rcases List.mem_cons.mp hl with rfl | hl
  · rw [hline] at htrailer
    exact (Option.some.inj htrailer).symm
  · exact (h checksum hchecksum).2 l hl value htrailer

/-- All that a turn over the trailers can do where it does not fail: the trailers end with the stream or
    at an empty line, or a line is checked, or passed over. -/
inductive TrailerTurn (p : ChunkParams) (fuel : Nat) (cr cr' : ChunkedReader) : Prop where
  | eof (hread : readLine cr.r = .error (.io .eof)) (hshown : ¬(p.checksum.isSome && !cr.ckSeen) = true)
    (hsame : cr' = cr)
  | blank {r : BufReader} (hread : readLine cr.r = .ok ([], r))
    (hshown : ¬(p.checksum.isSome && !cr.ckSeen) = true) (hsame : cr' = cr)
  | found {line : Bytes} {r : BufReader} {checksum : Bytes → Bytes} (hread : readLine cr.r = .ok (line, r))
    (hne : line ≠ []) (hchecksum : p.checksum = some checksum)
    (htrailer : checksumTrailer p line = some (checksum cr.ckData))
    (hrest : trailersLoop p fuel { cr with r, ckSeen := true } = .ok cr')
  | skip {line : Bytes} {r : BufReader} (hread : readLine cr.r = .ok (line, r)) (hne : line ≠ [])
    (hnot : ∀ checksum value, p.checksum = some checksum → checksumTrailer p line = some value → False)
    (hrest : trailersLoop p fuel { cr with r } = .ok cr')

theorem trailersLoop_turn {fuel : Nat} (h : trailersLoop p (fuel + 1) cr = .ok cr') : TrailerTurn p fuel cr cr' := by
  rw [trailersLoop] at h
  -- a turn ends the loop at the end of the stream or at a blank line, and else goes on
  cases hread : readLine cr.r with
  | error e =>
    rw [hread] at h
    dsimp only at h
    split at h
    · rename_i heof
      subst heof
      split at h
      · cases h
      · rename_i hshown
        exact .eof hread hshown (Except.ok.inj h).symm
    · cases h
  | ok lr =>
    obtain ⟨line, r⟩ := lr
    rw [hread] at h
    dsimp only at h
    split at h
    · rename_i hempty
      subst hempty
      split at h
      · cases h
      · rename_i hshown
        exact .blank hread hshown (Except.ok.inj h).symm
    · rename_i hne
      split at h
      · rename_i checksum value hchecksum htrailer
        split at h
        · cases h
        · rename_i hright
          obtain rfl : value = checksum cr.ckData := by simpa using hright
          exact .found hread hne hchecksum htrailer h
      · rename_i hnot
        exact .skip hread hne hnot h

theorem trailersLoop_ok {fuel : Nat} (hr : cr.r.EndsLast) (h : trailersLoop p fuel cr = .ok cr') :
    (∃ r seen, r.EndsLast ∧ cr' = { cr with r, ckSeen := seen }) ∧
      ∃ lines, Trailers cr.r.rest lines ∧ TrailersShow p cr.ckData cr.ckSeen lines := by
  induction fuel generalizing cr with
  | zero => cases h
  | succ fuel ih =>
    cases trailersLoop_turn h with
    | eof hread hshown hsame =>
      refine ⟨⟨cr.r, cr.ckSeen, hr, hsame⟩, [], ?_, .nil hshown⟩
      rw [readLine_eof hr hread]
      exact .none
    | blank hread hshown hsame =>
      exact ⟨⟨cr.r, cr.ckSeen, hr, hsame⟩, [], .blank (readLine_ok hr hread).1, .nil hshown⟩
    | @found line r checksum hread hne hchecksum htrailer hrest =>
      obtain ⟨hline, hends⟩ := readLine_ok hr hread
      obtain ⟨⟨r', seen', hr', rfl⟩, lines, hlines, hshow⟩ := ih hends hrest
      exact ⟨⟨r', seen', hr', rfl⟩, line :: lines, .line hline hne hlines, .found hshow hchecksum htrailer⟩
    | @skip line r hread hne hnot hrest =>
      obtain ⟨hline, hends⟩ := readLine_ok hr hread
      obtain ⟨⟨r', seen', hr', rfl⟩, lines, hlines, hshow⟩ := ih hends hrest
      exact ⟨⟨r', seen', hr', rfl⟩, line :: lines, .line hline hne hlines, .skip hshow hnot⟩

theorem trailersLoop_enough {fuel : Nat} (hr : cr.r.EndsLast) (hfuel : cr.r.rest.length < fuel) :
    trailersLoop p (fuel + 1) cr = trailersLoop p fuel cr := by
  induction fuel generalizing cr with
  | zero => cases hfuel
  | succ fuel ih =>
    rw [trailersLoop, trailersLoop]
    cases hread : readLine cr.r with
    | error e => rfl
    | ok lr =>
      obtain ⟨line, r⟩ := lr
      obtain ⟨hline, hends⟩ := readLine_ok hr hread
      dsimp only
      split
      · rfl
      · have hless := hline.length_lt
        split
        · split
          · rfl
          · exact ih hends (by dsimp only; omega)
        · exact ih hends (by dsimp only; omega)

theorem discardTrailers_ok (h : discardTrailers p cr = .ok cr') (hr : cr.r.EndsLast)
    (hseen : cr.ckSeen = false) :
    (∃ r seen, r.EndsLast ∧ cr' = { cr with r, ckSeen := seen }) ∧
      ChecksumVerified p cr.ckData cr.r.rest := by
  unfold discardTrailers at h
  split at h
  · rename_i htrailer
    refine ⟨?_, fun checksum hchecksum => ?_⟩
    · split at h
      · rename_i r hread
        obtain rfl := Except.ok.inj h
        exact ⟨r, cr.ckSeen, (readCRLF_ok hr hread).2, rfl⟩
      · obtain rfl := Except.ok.inj h
        exact ⟨cr.r, cr.ckSeen, hr, rfl⟩
    · have hdeclared := p.checksum_trailer (by rw [hchecksum]; rfl)
      rw [hdeclared] at htrailer
      cases htrailer
  · obtain ⟨hstate, lines, hlines, hshow⟩ := trailersLoop_ok hr h
    refine ⟨hstate, fun checksum hchecksum => ?_⟩
    obtain ⟨hfound, hall⟩ := hshow checksum hchecksum
    rw [hseen] at hfound
    exact ⟨lines, hlines, hfound.resolve_left Bool.false_ne_true, hall⟩

/-! The end of the stream is never reported as a failure. -/

omit [Unicode] in
theorem readChunkHeader_ne_eof : readChunkHeader p cr ≠ .error (.io .eof) := by
  unfold readChunkHeader
  split
  · split
    · nofun
    · rename_i hne
      intro h
      exact hne (Except.error.inj h)
  · exact bind_ne_error parseChunkHeader_ne_eof fun _ _ => nofun

omit [Unicode] in
theorem verifyChunk_ne_eof : verifyChunk p cr ≠ .error (.io .eof) := by
  unfold verifyChunk
  split
  · nofun
  · split <;> nofun

theorem trailersLoop_ne_eof {fuel : Nat} : trailersLoop p fuel cr ≠ .error (.io .eof) := by
  induction fuel generalizing cr with
  | zero => nofun
  | succ fuel ih =>
    rw [trailersLoop]
    split
    · split
      · split <;> nofun
      · rename_i hne
        intro h
        exact hne (Except.error.inj h)
    · split
      · split <;> nofun
      · split
        · split
          · nofun
          · exact ih
        · exact ih

theorem discardTrailers_ne_eof : discardTrailers p cr ≠ .error (.io .eof) := by
  unfold discardTrailers
  split
  · split <;> nofun
  · exact trailersLoop_ne_eof

theorem readTerminal_ne_eof : readTerminal p cr ≠ .error (.io .eof) := by
  unfold readTerminal
  refine bind_ne_error readCRLF_ne_eof fun r _ => bind_ne_error readChunkHeader_ne_eof fun s _ => ?_
  dsimp only
  split
  · nofun
  · exact bind_ne_error verifyChunk_ne_eof fun cr _ =>
      bind_ne_error discardTrailers_ne_eof fun cr _ => nofun

theorem nextChunk_ne_eof : nextChunk p cr ≠ .error (.io .eof) := by
  have hend : endChunk cr ≠ .error (.io .eof) := by
    unfold endChunk
    split
    · cases hread : readCRLF cr.r with
      | ok r => nofun
      | error e =>
        intro h
        cases h
        exact readCRLF_ne_eof hread
    · nofun
  unfold nextChunk
  refine bind_ne_error hend fun cr _ => bind_ne_error readChunkHeader_ne_eof fun s _ => ?_
  dsimp only
  split
  · nofun
  · split
    · refine bind_ne_error verifyChunk_ne_eof fun cr _ => ?_
      split
      · nofun
      · exact bind_ne_error discardTrailers_ne_eof fun cr _ => nofun
    · nofun

theorem finishChunk_ne_eof : finishChunk p cr ≠ .error (.io .eof) := by
  unfold finishChunk
  refine bind_ne_error verifyChunk_ne_eof fun cr _ => ?_
  split
  · exact readTerminal_ne_eof
  · nofun

end Parts

/-! ## Where the reader stands -/

section Standing

variable [Unicode] (p : ChunkParams) (seed stream delivered : Bytes)

/-- Chunks at `rest`, chained from `prev`, carry on what has been delivered of the stream. -/
def Resumes (prev rest : Bytes) : Prop :=
  ∀ payload tail, ChunkStream p payload prev rest tail →
    ChunkStream p payload seed stream (delivered ++ tail)

/-- In front of a chunk header, after the CRLF of the chunk before it. -/
structure AtHeader (cr : ChunkedReader) : Prop where
  eof : cr.eof = false
  remaining : cr.remaining = 0
  fresh : p.signed = true → cr.chunkData = []
  resume : ∀ rest, cr.r.rest = (if cr.started then str "\r\n" else []) ++ rest →
    Resumes p seed stream delivered cr.prevSig rest

/-- Inside a chunk, or at its end with its signature not yet checked. -/
structure InChunk (cr : ChunkedReader) : Prop where
  eof : cr.eof = false
  started : cr.started = true
  undecoded : 0 ≤ cr.undecoded
  resume : ∀ d rest, cr.r.rest = d ++ str "\r\n" ++ rest → (d.length : Int) = cr.remaining →
    (p.signed = true → cr.chunkSig = chunkSignature p cr.prevSig (cr.chunkData ++ d)) →
    Resumes p seed stream (delivered ++ d) cr.chunkSig rest

structure Complete (cr : ChunkedReader) : Prop where
  eof : cr.eof = true
  remaining : cr.remaining = 0
  undecoded : cr.undecoded = 0
  stream : ChunkStream p delivered seed stream delivered

structure Accounts (declared : Int) (cr : ChunkedReader) : Prop where
  endsLast : cr.r.EndsLast
  err : cr.err = none
  ckData : p.checksum.isSome = true → cr.ckData = delivered
  ckSeen : cr.eof = false → cr.ckSeen = false
  length : delivered.length + cr.remaining + cr.undecoded = declared

/-- The reader between two calls: with a chunk finished, more is to come or all is done. -/
inductive Standing (cr : ChunkedReader) : Prop
  | header (h : AtHeader p seed stream delivered cr)
    (hopen : if cr.started then 0 < cr.undecoded else delivered = [])
  | within (h : InChunk p seed stream delivered cr) (hopen : 0 < cr.remaining)
  | complete (h : Complete p seed stream delivered cr)

variable {p seed stream delivered} {declared : Int} {cr cr' : ChunkedReader}

theorem checksumVerified_congr {payload payload' rest : Bytes}
    (h : ChecksumVerified p payload rest) (hsame : p.checksum.isSome = true → payload = payload') :
    ChecksumVerified p payload' rest := by
  intro checksum hchecksum
  rw [← hsame (by rw [hchecksum]; rfl)]
  exact h checksum hchecksum

theorem complete_of_terminal {line sig rest : Bytes} {r : BufReader}
    (hacc : Accounts p delivered declared cr) (hfresh : p.signed = true → cr.chunkData = [])
    (heof : cr.eof = false) (hrem : cr.remaining = 0) (hund : cr.undecoded = 0)
    (hresume : Resumes p seed stream delivered cr.prevSig rest)
    (hline : FramingLine rest line r.rest) (hends : r.EndsLast)
    (hheader : parseChunkHeader p.signed line = .ok (0, sig)) {verified : ChunkedReader}
    (hverify : verifyChunk p { cr with r, chunkSig := sig } = .ok verified)
    (hdiscard : discardTrailers p verified = .ok cr') :
    Accounts p delivered declared { cr' with eof := true } ∧
      Complete p seed stream delivered { cr' with eof := true } := by
  obtain ⟨hsig, hverified⟩ := verifyChunk_ok hverify
  obtain ⟨prevSig, chunkData, rfl⟩ : ∃ prevSig chunkData,
      verified = { cr with r, chunkSig := sig, prevSig, chunkData } := by
    split at hverified
    · exact ⟨_, _, hverified⟩
    · exact ⟨cr.prevSig, cr.chunkData, hverified⟩
  obtain ⟨⟨r', seen, hr', rfl⟩, hchecksum⟩ :=
    discardTrailers_ok hdiscard hends (hacc.ckSeen heof)
  refine ⟨⟨hr', hacc.err, hacc.ckData, nofun, hacc.length⟩, rfl, hrem, hund, ?_⟩
  have hterminal : ChunkStream p delivered cr.prevSig rest [] := by
    refine .terminal hline hheader (fun hs => ?_) (checksumVerified_congr hchecksum hacc.ckData)
    have hsig := hsig hs
    dsimp only at hsig
    rw [hfresh hs] at hsig
    exact hsig
  have hwhole := hresume delivered [] hterminal
  rwa [List.append_nil] at hwhole

omit [Unicode] in
theorem endChunk_ok (h : endChunk cr = .ok cr') (hr : cr.r.EndsLast) :
    ∃ r, r.EndsLast ∧ cr' = { cr with r } ∧
      cr.r.rest = (if cr.started then str "\r\n" else []) ++ r.rest := by
  unfold endChunk at h
  split at h
  · rename_i hstarted
    cases hread : readCRLF cr.r with
    | error e =>
      rw [hread] at h
      cases h
    | ok r =>
      rw [hread] at h
      obtain rfl := Except.ok.inj h
      obtain ⟨hrest, hends⟩ := readCRLF_ok hr hread
      exact ⟨r, hends, rfl, by rw [if_pos hstarted]; exact hrest⟩
  · rename_i hstarted
    obtain rfl := Except.ok.inj h
    exact ⟨cr.r, hr, rfl, by rw [if_neg hstarted]; rfl⟩

theorem nextChunk_ok (hnext : nextChunk p cr = .ok cr') (hacc : Accounts p delivered declared cr)
    (h : AtHeader p seed stream delivered cr) :
    Accounts p delivered declared cr' ∧
      (Complete p seed stream delivered cr' ∨
        InChunk p seed stream delivered cr' ∧ 0 < cr'.remaining) := by
  -- the end of the chunk before, then the header line, in the order they are read
  unfold nextChunk at hnext
  obtain ⟨cr₁, hend, hnext⟩ := bind_eq_ok.mp hnext
  obtain ⟨r₁, hr₁, rfl, hrest⟩ := endChunk_ok hend hacc.endsLast
  obtain ⟨⟨size, cr₂⟩, hheader, hnext⟩ := bind_eq_ok.mp hnext
  obtain ⟨line, r₂, sig, hline, hr₂, hparse, rfl⟩ := readChunkHeader_ok hr₁ hheader
  have hsize := parseChunkHeader_size hparse
  have hresume := h.resume r₁.rest hrest
  have hlength := hacc.length
  have hrem := h.remaining
  dsimp only at hnext
  split at hnext
  · cases hnext
  · rename_i hallowed
    split at hnext
    · -- the chunk of no bytes closes the stream, and only once the declared length is exhausted
      rename_i hzero
      subst hzero
      obtain ⟨verified, hverify, hnext⟩ := bind_eq_ok.mp hnext
      split at hnext
      · cases hnext
      · rename_i hexhausted
        obtain ⟨cr₃, hdiscard, hnext⟩ := bind_eq_ok.mp hnext
        cases hnext
        have hund : cr.undecoded - 0 = 0 := by
          rw [verifyChunk_undecoded hverify] at hexhausted
          simpa using hexhausted
        have hacc₂ : Accounts p delivered declared
            { cr with started := true, undecoded := cr.undecoded - 0 } :=
          ⟨hacc.endsLast, hacc.err, hacc.ckData, hacc.ckSeen, by dsimp only; omega⟩
        obtain ⟨hacc₃, hcomplete⟩ := complete_of_terminal hacc₂ h.fresh h.eof hrem hund hresume
          hline hr₂ hparse hverify hdiscard
        exact ⟨hacc₃, .inl hcomplete⟩
    · rename_i hzero
      cases hnext
      refine ⟨⟨hr₂, hacc.err, hacc.ckData, hacc.ckSeen, ?_⟩, .inr ⟨⟨h.eof, rfl, ?_, ?_⟩, ?_⟩⟩
      · dsimp only
        omega
      · dsimp only
        omega
      · -- the chunk was announced with this length and signature
        intro d rest hd hlen hsig payload tail htail
        dsimp only at hd hlen hsig
        rw [hd] at hline
        rw [← hlen] at hparse
        have hne : d ≠ [] := by
          rintro rfl
          exact hzero (by simpa using hlen.symm)
        rw [List.append_assoc]
        refine hresume payload (d ++ tail) (.data hline hparse hne (fun hs => ?_) htail)
        rw [hsig hs, h.fresh hs]
        rfl
      · dsimp only
        omega

/-- The end of a chunk: more is to come, or the rest of the stream has been checked too. -/
theorem finishChunk_ok (hfinish : finishChunk p cr = .ok cr')
    (hacc : Accounts p delivered declared cr) (h : InChunk p seed stream delivered cr)
    (hrem : cr.remaining = 0) :
    Accounts p delivered declared cr' ∧ Standing p seed stream delivered cr' := by
  unfold finishChunk at hfinish
  obtain ⟨verified, hverify, hfinish⟩ := bind_eq_ok.mp hfinish
  obtain ⟨hsig, hverified⟩ := verifyChunk_ok hverify
  -- the chain goes on from this chunk's signature
  have hheader : Accounts p delivered declared verified ∧ AtHeader p seed stream delivered verified ∧
      verified.started = true ∧ verified.undecoded = cr.undecoded := by
    have hresume : ∀ rest, cr.r.rest = str "\r\n" ++ rest →
        Resumes p seed stream delivered cr.chunkSig rest := by
      intro rest hrest
      have hnil := h.resume [] rest hrest (by rw [hrem]; rfl)
        (fun hs => by rw [List.append_nil]; exact hsig hs)
      rwa [List.append_nil] at hnil
    cases hsigned : p.signed with
    | true =>
      rw [hsigned, if_pos rfl] at hverified
      subst hverified
      refine ⟨⟨hacc.endsLast, hacc.err, hacc.ckData, hacc.ckSeen, hacc.length⟩,
        ⟨h.eof, hrem, fun _ => rfl, fun rest hrest => ?_⟩, h.started, rfl⟩
      dsimp only at hrest ⊢
      rw [h.started, if_pos rfl] at hrest
      exact hresume rest hrest
    | false =>
      rw [hsigned, if_neg Bool.false_ne_true] at hverified
      subst hverified
      refine ⟨hacc, ⟨h.eof, hrem, by rw [hsigned]; nofun, fun rest hrest => ?_⟩, h.started, rfl⟩
      rw [h.started, if_pos rfl] at hrest
      intro payload tail htail
      exact hresume rest hrest payload tail (htail.unsigned (by rw [hsigned]; nofun))
  obtain ⟨hacc₁, hat, hstarted, hundecoded⟩ := hheader
  split at hfinish
  · rename_i hexhausted
    unfold readTerminal at hfinish
    obtain ⟨r₁, hcrlf, hfinish⟩ := bind_eq_ok.mp hfinish
    obtain ⟨hrest, hr₁⟩ := readCRLF_ok hacc₁.endsLast hcrlf
    obtain ⟨⟨size, cr₂⟩, hread, hfinish⟩ := bind_eq_ok.mp hfinish
    obtain ⟨line, r₂, sig, hline, hr₂, hparse, rfl⟩ := readChunkHeader_ok hr₁ hread
    dsimp only at hfinish
    split at hfinish
    · cases hfinish
    · rename_i hzero
      obtain rfl : size = 0 := by simpa using hzero
      obtain ⟨verified₂, hverify₂, hfinish⟩ := bind_eq_ok.mp hfinish
      obtain ⟨cr₃, hdiscard, hfinish⟩ := bind_eq_ok.mp hfinish
      cases hfinish
      have hresume := hat.resume r₁.rest (by rw [hstarted, if_pos rfl]; exact hrest)
      obtain ⟨hacc₃, hcomplete⟩ := complete_of_terminal hacc₁ hat.fresh hat.eof hat.remaining
        hexhausted hresume hline hr₂ hparse hverify₂ hdiscard
      exact ⟨hacc₃, .complete hcomplete⟩
  · rename_i hopen
    cases hfinish
    refine ⟨hacc₁, .header hat ?_⟩
    have hnonneg := h.undecoded
    rw [hstarted, if_pos rfl]
    omega

/-- What a call that hands out data can come to: a finished chunk or more of it, an error of the
    stream, or a chunk that is rejected with its last bytes. -/
inductive Delivers (p : ChunkParams) (n : Nat) (cr : ChunkedReader) : Bytes → Option ReadError → ChunkedReader → Prop
  | finished {d : Bytes} {e : Option StreamError} {r : BufReader} {cr' : ChunkedReader}
    (hread : cr.r.read (min n cr.remaining.toNat) = (d, e, r)) (hzero : (afterData p cr r d).remaining = 0)
    (hfinish : finishChunk p (afterData p cr r d) = .ok cr') : Delivers p n cr d none cr'
  | more {d : Bytes} {e : Option StreamError} {r : BufReader}
    (hread : cr.r.read (min n cr.remaining.toNat) = (d, e, r)) (hmore : (afterData p cr r d).remaining ≠ 0)
    (hquiet : 0 < (afterData p cr r d).remaining → e = none) : Delivers p n cr d none (afterData p cr r d)
  | failed {d : Bytes} {e : Option StreamError} {r : BufReader} {err : ReadError}
    (hread : cr.r.read (min n cr.remaining.toNat) = (d, e, r)) (hne : err ≠ .io .eof) :
    Delivers p n cr d (some err) { afterData p cr r d with err := some err }
  | rejected {d : Bytes} {e : Option StreamError} {r : BufReader} {err : ReadError}
    (hread : cr.r.read (min n cr.remaining.toNat) = (d, e, r)) (hne : err ≠ .io .eof) :
    Delivers p n cr [] (some err) { afterData p cr r d with err := some err }

theorem delivers (p : ChunkParams) (n : Nat) (cr : ChunkedReader) :
    Delivers p n cr (deliver p n cr).1 (deliver p n cr).2.1 (deliver p n cr).2.2 := by
  rcases hread : cr.r.read (min n cr.remaining.toNat) with ⟨d, e, r⟩
  unfold deliver
  rw [hread]
  dsimp only
  generalize hfailure : (if e = some .eof ∧ 0 < (afterData p cr r d).remaining then some incompleteBody
    else e.map .io) = failure
  split
  · rename_i hfailed
    obtain ⟨err, rfl⟩ := Option.ne_none_iff_exists'.mp hfailed.1
    exact .failed hread fun heof => hfailed.2 (congrArg some heof)
  · rename_i hok
    split
    · rename_i hzero
      cases hfinish : finishChunk p (afterData p cr r d) with
      | ok cr' => exact .finished hread hzero hfinish
      | error err => exact .rejected hread fun heof => finishChunk_ne_eof (heof ▸ hfinish)
    · rename_i hmore
      refine .more hread hmore fun hpos => ?_
      -- inside a chunk the end of the stream is an error of its own
      cases e with
      | none => rfl
      | some err =>
        refine absurd ?_ hok
        rw [← hfailure]
        by_cases heof : err = .eof
        · rw [if_pos ⟨by rw [heof], hpos⟩]
          exact ⟨by simp, by simp [incompleteBody]⟩
        · rw [if_neg (by simp [heof])]
          exact ⟨by simp, by simpa using heof⟩

inductive Reads (p : ChunkParams) (n : Nat) (cr : ChunkedReader) : Bytes → Option ReadError → ChunkedReader → Prop
  | again {err : ReadError} (herr : cr.err = some err) : Reads p n cr [] (some err) cr
  | ended (herr : cr.err = none) (heof : cr.eof = true) : Reads p n cr [] (some (.io .eof)) cr
  | stopped {err : ReadError} (herr : cr.err = none) (hzero : cr.remaining = 0) (hnext : nextChunk p cr = .error err) :
    Reads p n cr [] (some err) { cr with err := some err }
  | closed {cr₁ : ChunkedReader} (herr : cr.err = none) (heof : cr.eof = false) (hzero : cr.remaining = 0)
    (hnext : nextChunk p cr = .ok cr₁) (hend : cr₁.eof = true) : Reads p n cr [] (some (.io .eof)) cr₁
  | opened {cr₁ cr' : ChunkedReader} {d : Bytes} {e : Option ReadError} (herr : cr.err = none) (heof : cr.eof = false)
    (hzero : cr.remaining = 0) (hnext : nextChunk p cr = .ok cr₁) (hopen : cr₁.eof = false)
    (hdelivers : Delivers p n cr₁ d e cr') : Reads p n cr d e cr'
  | within {cr' : ChunkedReader} {d : Bytes} {e : Option ReadError} (herr : cr.err = none) (heof : cr.eof = false)
    (hmore : cr.remaining ≠ 0) (hdelivers : Delivers p n cr d e cr') : Reads p n cr d e cr'

theorem reads_as {n : Nat} {d : Bytes} {e : Option ReadError} (h : cr.read p n = (d, e, cr')) : Reads p n cr d e cr' := by
  -- in the order of the tests in `Read`: the error kept, the end seen, the chunk used up
  unfold ChunkedReader.read at h
  cases herr : cr.err with
  | some err =>
    rw [herr] at h
    cases h
    exact .again herr
  | none =>
    rw [herr] at h
    dsimp only at h
    rcases Bool.eq_false_or_eq_true cr.eof with heof | heof
    · rw [if_pos heof] at h
      cases h
      exact .ended herr heof
    · rw [if_neg (by simp [heof])] at h
      by_cases hzero : cr.remaining = 0
      · rw [if_pos hzero] at h
        cases hnext : nextChunk p cr with
        | error err =>
          rw [hnext] at h
          cases h
          exact .stopped herr hzero hnext
        | ok cr₁ =>
          rw [hnext] at h
          dsimp only at h
          rcases Bool.eq_false_or_eq_true cr₁.eof with hend | hend
          · rw [if_pos hend] at h
            cases h
            exact .closed herr heof hzero hnext hend
          · rw [if_neg (by simp [hend])] at h
            have hdelivers := delivers p n cr₁
            rw [h] at hdelivers
            exact .opened herr heof hzero hnext hend hdelivers
      · rw [if_neg hzero] at h
        have hdelivers := delivers p n cr
        rw [h] at hdelivers
        exact .within herr heof hzero hdelivers

theorem inChunk_afterData {n : Nat} {d : Bytes} {e : Option StreamError} {r : BufReader}
    (hread : cr.r.read (min n cr.remaining.toNat) = (d, e, r)) (h : InChunk p seed stream delivered cr) :
    InChunk p seed stream (delivered ++ d) (afterData p cr r d) := by
  have hstep := BufReader.readStep cr.r (min n cr.remaining.toNat)
  rw [hread] at hstep
  refine ⟨h.eof, h.started, h.undecoded, fun d' rest hrest hlen hsig => ?_⟩
  have hall := h.resume (d ++ d') rest
    (by rw [hstep.rest_eq]; dsimp only [afterData] at hrest; rw [hrest]; simp)
    (by dsimp only [afterData] at hlen; rw [List.length_append]; omega)
    (fun hs => by
      have hsig := hsig hs
      dsimp only [afterData] at hsig
      rw [hs, if_pos rfl, List.append_assoc] at hsig
      exact hsig)
  rwa [← List.append_assoc] at hall

omit [Unicode] in
theorem accounts_afterData {n : Nat} {d : Bytes} {e : Option StreamError} {r : BufReader}
    (hread : cr.r.read (min n cr.remaining.toNat) = (d, e, r))
    (hacc : Accounts p delivered declared cr) :
    Accounts p (delivered ++ d) declared (afterData p cr r d) := by
  have hstep := BufReader.readStep cr.r (min n cr.remaining.toNat)
  rw [hread] at hstep
  refine ⟨hstep.endsLast hacc.endsLast, hacc.err, fun hck => ?_, hacc.ckSeen, ?_⟩
  · dsimp only [afterData]
    rw [if_pos hck, hacc.ckData hck]
  · have hlength := hacc.length
    dsimp only [afterData]
    rw [List.length_append]
    omega

omit [Unicode] in
theorem read_length_le {n : Nat} {d : Bytes} {e : Option StreamError} {r : BufReader}
    (hread : cr.r.read (min n cr.remaining.toNat) = (d, e, r)) : d.length ≤ min n cr.remaining.toNat := by
  have hstep := BufReader.readStep cr.r (min n cr.remaining.toNat)
  rw [hread] at hstep
  exact hstep.length_le

theorem Delivers.ok {n : Nat} {d : Bytes} (hdelivers : Delivers p n cr d none cr')
    (hacc : Accounts p delivered declared cr) (h : InChunk p seed stream delivered cr)
    (hrem : 0 < cr.remaining) :
    Accounts p (delivered ++ d) declared cr' ∧ Standing p seed stream (delivered ++ d) cr' := by
  cases hdelivers with
  | finished hread hzero hfinish =>
    exact finishChunk_ok hfinish (accounts_afterData hread hacc) (inChunk_afterData hread h) hzero
  | more hread hmore =>
    refine ⟨accounts_afterData hread hacc, .within (inChunk_afterData hread h) ?_⟩
    have hlen := read_length_le hread
    dsimp only [afterData] at hmore ⊢
    omega

theorem Delivers.ne_eof {n : Nat} {d : Bytes} (h : Delivers p n cr d (some (.io .eof)) cr') : False := by
  cases h with
  | failed _ hne => exact hne rfl
  | rejected _ hne => exact hne rfl

theorem Delivers.length_le {n : Nat} {d : Bytes} {e : Option ReadError} (h : Delivers p n cr d e cr') :
    d.length ≤ min n cr.remaining.toNat := by
  cases h with
  | finished hread => exact read_length_le hread
  | more hread => exact read_length_le hread
  | failed hread => exact read_length_le hread
  | rejected => exact Nat.zero_le _

theorem read_length {n : Nat} {d : Bytes} (hread : cr.read p n = (d, none, cr')) : d.length ≤ n := by
  cases reads_as hread with
  | opened _ _ _ _ _ hdelivers => exact hdelivers.length_le.trans (Nat.min_le_left _ _)
  | within _ _ _ hdelivers => exact hdelivers.length_le.trans (Nat.min_le_left _ _)

theorem read_ok {n : Nat} {d : Bytes} (hread : cr.read p n = (d, none, cr'))
    (hacc : Accounts p delivered declared cr) (h : Standing p seed stream delivered cr) :
    Accounts p (delivered ++ d) declared cr' ∧ Standing p seed stream (delivered ++ d) cr' := by
  cases reads_as hread with
  | within _ heof hmore hdelivers =>
    cases h with
    | complete h => cases heof.symm.trans h.eof
    | within h hopen => exact hdelivers.ok hacc h hopen
    | header h => exact absurd h.remaining hmore
  | opened _ heof hzero hnext hopen hdelivers =>
    cases h with
    | complete h => cases heof.symm.trans h.eof
    | within h hopen => omega
    | header h =>
      obtain ⟨hacc₁, hcomplete | ⟨hin, hpos⟩⟩ := nextChunk_ok hnext hacc h
      · cases hopen.symm.trans hcomplete.eof
      · exact hdelivers.ok hacc₁ hin hpos

theorem read_eof {n : Nat} {d : Bytes} (hread : cr.read p n = (d, some (.io .eof), cr'))
    (hacc : Accounts p delivered declared cr) (h : Standing p seed stream delivered cr) :
    d = [] ∧ ∃ cr₁, Accounts p delivered declared cr₁ ∧ Complete p seed stream delivered cr₁ := by
  cases reads_as hread with
  | again herr => cases hacc.err.symm.trans herr
  | ended _ heof =>
    cases h with
    | complete h => exact ⟨rfl, _, hacc, h⟩
    | within h => cases heof.symm.trans h.eof
    | header h => cases heof.symm.trans h.eof
  | stopped _ _ hnext => exact absurd hnext nextChunk_ne_eof
  | closed _ heof hzero hnext hend =>
    cases h with
    | complete h => cases heof.symm.trans h.eof
    | within h hopen => omega
    | header h =>
      obtain ⟨hacc₁, hcomplete | ⟨hin, -⟩⟩ := nextChunk_ok hnext hacc h
      · exact ⟨rfl, _, hacc₁, hcomplete⟩
      · cases hend.symm.trans hin.eof
  | opened _ _ _ _ _ hdelivers => exact hdelivers.ne_eof.elim
  | within _ _ _ hdelivers => exact hdelivers.ne_eof.elim

theorem complete_of_length (hacc : Accounts p delivered declared cr)
    (h : Standing p seed stream delivered cr) (hpos : 0 < declared)
    (hlen : (delivered.length : Int) = declared) : Complete p seed stream delivered cr := by
  have hlength := hacc.length
  cases h with
  | complete h => exact h
  | within h hopen =>
    have hnonneg := h.undecoded
    omega
  | header h hopen =>
    have hrem := h.remaining
    split at hopen
    · omega
    · rw [hopen] at hlen
      simp only [List.length_nil] at hlen
      omega

end Standing

/-! ## Whole bodies -/

/-- The bytes delivered by calls that have come to the end of the body: to its declared
    length without an error, or to `io.EOF` as the first error. -/
inductive Finished (declared : Int) (outcomes : List (Bytes × Option ReadError)) : Bytes → Prop
  | delivered (hok : ∀ o ∈ outcomes, o.2 = none) (hpos : 0 < declared)
    (hlen : ((outcomes.flatMap (·.1)).length : Int) = declared) :
    Finished declared outcomes (outcomes.flatMap (·.1))
  | ended {before after : List (Bytes × Option ReadError)} {d : Bytes}
    (houtcomes : outcomes = before ++ (d, some (.io .eof)) :: after)
    (hok : ∀ o ∈ before, o.2 = none) : Finished declared outcomes (before.flatMap (·.1) ++ d)

section Bodies

variable [Unicode] {p : ChunkParams} {seed stream delivered : Bytes} {declared : Int}
  {cr : ChunkedReader}

theorem reads_ok {sizes : List Nat} (hacc : Accounts p delivered declared cr)
    (h : Standing p seed stream delivered cr) (hok : ∀ o ∈ cr.reads p sizes, o.2 = none) :
    ∃ cr', Accounts p (delivered ++ (cr.reads p sizes).flatMap (·.1)) declared cr' ∧
      Standing p seed stream (delivered ++ (cr.reads p sizes).flatMap (·.1)) cr' := by
  induction sizes generalizing cr delivered with
  | nil =>
    refine ⟨cr, ?_⟩
    simp only [ChunkedReader.reads, List.flatMap_nil, List.append_nil]
    exact ⟨hacc, h⟩
  | cons n sizes ih =>
    rcases hread : cr.read p n with ⟨d, e, cr₁⟩
    simp only [ChunkedReader.reads, hread, List.forall_mem_cons] at hok
    obtain ⟨rfl, hrest⟩ := hok
    obtain ⟨hacc₁, hstanding⟩ := read_ok hread hacc h
    obtain ⟨cr', hacc', hstanding'⟩ := ih hacc₁ hstanding hrest
    refine ⟨cr', ?_⟩
    simp only [ChunkedReader.reads, hread, List.flatMap_cons, ← List.append_assoc]
    exact ⟨hacc', hstanding'⟩

theorem reads_eof {sizes : List Nat} {before after : List (Bytes × Option ReadError)} {d : Bytes}
    (hacc : Accounts p delivered declared cr) (h : Standing p seed stream delivered cr)
    (houtcomes : cr.reads p sizes = before ++ (d, some (.io .eof)) :: after)
    (hok : ∀ o ∈ before, o.2 = none) :
    d = [] ∧ ∃ cr', Accounts p (delivered ++ before.flatMap (·.1)) declared cr' ∧
      Complete p seed stream (delivered ++ before.flatMap (·.1)) cr' := by
  induction sizes generalizing cr delivered before with
  | nil => simp [ChunkedReader.reads] at houtcomes
  | cons n sizes ih =>
    rcases hread : cr.read p n with ⟨d', e, cr₁⟩
    rw [ChunkedReader.reads, hread] at houtcomes
    dsimp only at houtcomes
    cases before with
    | nil =>
      cases houtcomes
      rw [List.flatMap_nil, List.append_nil]
      exact read_eof hread hacc h
    | cons o before =>
      obtain ⟨rfl, htail⟩ := List.cons.inj houtcomes
      obtain ⟨rfl, hrest⟩ := List.forall_mem_cons.mp hok
      obtain ⟨hacc₁, hstanding⟩ := read_ok hread hacc h
      rw [List.flatMap_cons, ← List.append_assoc]
      exact ih hacc₁ hstanding htail hrest

theorem newChunkedReader_standing (p : ChunkParams) (vr : Verified) (body : Source)
    (declared : Int) :
    Accounts p [] declared (newChunkedReader p vr body declared) ∧
      Standing p vr.signature body.bytes [] (newChunkedReader p vr body declared) := by
  refine ⟨⟨BufReader.endsLast_of_err_none rfl, rfl, fun _ => rfl, fun _ => rfl, ?_⟩,
    .header ⟨rfl, rfl, fun _ => rfl, fun rest hrest payload tail htail => ?_⟩ rfl⟩
  · simp [newChunkedReader]
  · obtain rfl : body.bytes = rest := hrest
    refine htail.unsigned fun hs => ?_
    simp [newChunkedReader, hs]

/-- Whatever the body is, however it arrives and however it is read: once its end has been
    reached, it was a stream of chunks that hold what was delivered. -/
theorem chunkedReader_integrity (crypto : Crypto) (newHash : Bytes → Option (Bytes → Bytes))
    (formatAmzDate : Time → Bytes) (vr : Verified) (trailerAlg : Bytes) (body : Source)
    (declared : Int) (sizes : List Nat) (delivered : Bytes)
    (h : Finished declared
      ((newChunkedReader (chunkParams crypto newHash formatAmzDate vr trailerAlg) vr body
        declared).reads (chunkParams crypto newHash formatAmzDate vr trailerAlg) sizes) delivered) :
    ChunkStream (chunkParams crypto newHash formatAmzDate vr trailerAlg) delivered vr.signature
        body.bytes delivered ∧ (delivered.length : Int) = declared := by
  obtain ⟨hacc, hstanding⟩ := newChunkedReader_standing
    (chunkParams crypto newHash formatAmzDate vr trailerAlg) vr body declared
  cases h with
  | delivered hok hpos hlen =>
    obtain ⟨cr, hacc', hstanding'⟩ := reads_ok hacc hstanding hok
    rw [List.nil_append] at hacc' hstanding'
    exact ⟨(complete_of_length hacc' hstanding' hpos hlen).stream, hlen⟩
  | ended houtcomes hok =>
    obtain ⟨rfl, cr, hacc', hcomplete⟩ := reads_eof hacc hstanding houtcomes hok
    rw [List.nil_append] at hacc' hcomplete
    rw [List.append_nil]
    have hlength := hacc'.length
    rw [hcomplete.remaining, hcomplete.undecoded] at hlength
    exact ⟨hcomplete.stream, by omega⟩

end Bodies

/-- Functions that make every signature `01` and every checksum the data itself. -/
def plainCrypto : Crypto where
  sha256 := id
  hmac _ _ := [1]

def trailerVerified : Verified where
  accessKeyID := str "AK"
  signingKey := []
  signature := str "seed"
  signingTime := 0
  scope := str "scope"
  region := []
  payloadHash := streamingSHA256T

/-- A body that arrives in fragments cut through its framing. -/
def fragmentedBody : Source where
  fragments := [str "3;chunk-sig", [], str "nature=01\r", str "\nabc\r\n2;chunk-signature=01\r\nd",
    str "e\r\n0;chunk-signature=01\r\nx-amz-checksum-CRC32: ab", str "cde\r\n\r\n"]
  final := .eof
  finalWithData := true

/-- Read two bytes at a time it holds what was delivered. -/
theorem fragmentedBody_intact :
    let _ := asciiTables
    ChunkStream (chunkParams plainCrypto (fun _ => some id) (fun _ => str "date") trailerVerified
        (str "crc32")) (str "abcde") (str "seed") fragmentedBody.bytes (str "abcde") ∧
      ((str "abcde").length : Int) = 5 := by
  intro _
  let p := chunkParams plainCrypto (fun _ => some id) (fun _ => str "date") trailerVerified
    (str "crc32")
  have houtcomes : (newChunkedReader p trailerVerified fragmentedBody 5).reads p [2, 2, 2, 2, 2] =
      [(str "ab", none), (str "c", none), (str "d", none), (str "e", none)] ++ ([], some (.io .eof)) :: [] := by
    decide +kernel
  exact chunkedReader_integrity plainCrypto (fun _ => some id) (fun _ => str "date") trailerVerified
    (str "crc32") fragmentedBody 5 [2, 2, 2, 2, 2] (str "abcde") (.ended houtcomes (by decide))

end S3Gateway.Sigv4
