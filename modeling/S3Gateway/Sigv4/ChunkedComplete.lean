import S3Gateway.Sigv4.ChunkedIntegrity

/-! # Everything encoded is decoded

The encoders a client of the aws-chunked encodings uses, and that the decoder undoes them:
between two calls the reader stands at a point of the encoded stream, each call moves it on
towards the end, and at the end it has delivered the payload.  The fragments the stream
arrives in and the sizes of the reads do not matter. -/

namespace S3Gateway.Sigv4

open Go S3err Fallible

/-! ## The encoders -/

def crlf : Bytes := str "\r\n"

/-- `fmt.Sprintf("%x", n)`. -/
def formatHex (n : Nat) : Bytes :=
  if n = 0 then str "0" else (Nat.digits 16 n).reverse.map hexDigitLower

def encodeHeader (p : ChunkParams) (sig : Bytes) (size : Nat) : Bytes :=
  formatHex size ++ if p.signed then str ";chunk-signature=" ++ sig else []

/-- The chunks and the terminal one, each signed after the one before. -/
def encodeChunks (p : ChunkParams) : Bytes → List Bytes → Bytes
  | prev, [] => encodeHeader p (chunkSignature p prev []) 0 ++ crlf
  | prev, chunk :: chunks =>
    encodeHeader p (chunkSignature p prev chunk) chunk.length ++ crlf ++ (chunk ++ crlf ++
      encodeChunks p (chunkSignature p prev chunk) chunks)

/-- The trailer lines, where the encoding has them, and the blank line that ends the stream. -/
def encodeTrailers (p : ChunkParams) (trailers : List Bytes) : Bytes :=
  (if p.trailer then trailers.flatMap (· ++ crlf) else []) ++ crlf

/-- The body of a request whose payload is cut into the chunks. -/
def encodeStream (p : ChunkParams) (seed : Bytes) (chunks trailers : List Bytes) : Bytes :=
  encodeChunks p seed chunks ++ encodeTrailers p trailers

/-- Trailer lines that fit a line each, and of which the one declared, if any, has the
    checksum of the payload. -/
structure TrailersFit [Unicode] (p : ChunkParams) (payload : Bytes) (trailers : List Bytes) : Prop where
  lines : ∀ line ∈ trailers, line ≠ [] ∧ ch '\n' ∉ line ∧ trimLineEnd line = line ∧
    line.length < maxChunkLineLen
  correct : ∀ checksum, p.checksum = some checksum → ∀ line ∈ trailers, ∀ value,
    checksumTrailer p line = some value → value = checksum payload
  declared : ∀ checksum, p.checksum = some checksum →
    ∃ line ∈ trailers, checksumTrailer p line = some (checksum payload)

/-! ## Sizes -/

theorem hexVal_hexDigitLower : ∀ d < 16, hexVal (hexDigitLower d) = some d := by decide

/-- The bytes of a size: hexadecimal digits, neither a sign nor a separator. -/
theorem mem_formatHex {n : Nat} {b : UInt8} (h : b ∈ formatHex n) :
    b ≠ ch ';' ∧ b ≠ ch '\n' ∧ b ≠ ch '\r' ∧ b ≠ ch '-' ∧ b ≠ ch '+' := by
  have hdigit : ∀ d < 16, hexDigitLower d ≠ ch ';' ∧ hexDigitLower d ≠ ch '\n' ∧
      hexDigitLower d ≠ ch '\r' ∧ hexDigitLower d ≠ ch '-' ∧ hexDigitLower d ≠ ch '+' := by decide
  unfold formatHex at h
  split at h
  · rw [show str "0" = [hexDigitLower 0] by decide, List.mem_singleton] at h
    rw [h]
    exact hdigit 0 (by decide)
  · obtain ⟨d, hd, rfl⟩ := List.mem_map.mp h
    exact hdigit d (Nat.digits_lt_base (by decide) (List.mem_reverse.mp hd))

theorem parseInt_formatHex {n : Nat} (hn : n < 2 ^ 63) : parseInt 16 64 (formatHex n) = some (n : Int) := by
  have hdigits : parseDigits 16 0 (formatHex n) = some n := by
    unfold formatHex
    split
    · rename_i hzero
      rw [hzero]
      decide
    · rw [parseDigits_digits (fun d hd => ⟨by simp, hexVal_hexDigitLower d hd⟩)
        fun d hd => Nat.digits_lt_base (by decide) hd, Nat.ofDigits_digits]
  have hne : formatHex n ≠ [] := by
    unfold formatHex
    split
    · decide
    · rename_i hpos
      simpa [Nat.digits_ne_nil_iff_ne_zero] using hpos
  obtain ⟨b, rest, hb⟩ := List.exists_cons_of_ne_nil hne
  obtain ⟨-, -, -, hminus, hplus⟩ := mem_formatHex (n := n) (b := b) (by rw [hb]; exact List.mem_cons_self)
  rw [hb] at hdigits
  rw [hb, parseInt]
  simp [hminus, hplus, hdigits]
  exact hn

theorem length_formatHex {n : Nat} (hn : n < 2 ^ 63) : (formatHex n).length ≤ 16 := by
  unfold formatHex
  split
  · decide
  · rw [List.length_map, List.length_reverse, Nat.digits_length_le_iff (by decide)]
    calc n < 2 ^ 63 := hn
      _ ≤ 16 ^ 16 := by decide

/-! ## Lines -/

/-- A reader that got past the front of what was to come. -/
structure MovedTo (r r' : BufReader) (rest : Bytes) : Prop where
  rest_eq : r'.rest = rest
  healthy : r'.Healthy
  size_le : r'.size ≤ r.size

theorem MovedTo.trans {r r' r'' : BufReader} {rest rest' : Bytes} (h : MovedTo r r' rest)
    (h' : MovedTo r' r'' rest') : MovedTo r r'' rest' :=
  ⟨h'.rest_eq, h'.healthy, Nat.le_trans h'.size_le h.size_le⟩

theorem crlf_eq : crlf = [ch '\r', ch '\n'] := by decide

theorem trimLineEnd_cr (line : Bytes) : trimLineEnd (line ++ [ch '\r']) = trimLineEnd line := by
  simp [trimLineEnd]

section Lines

variable {r : BufReader}

theorem readLineLoop_complete (room : Nat) (sb : Bytes) {text rest : Bytes} (hr : r.Healthy)
    (hrest : r.rest = text ++ ch '\n' :: rest) (htext : ch '\n' ∉ text) (hroom : text.length ≤ room) :
    ∃ r', readLineLoop room sb r = .ok (trimLineEnd (sb ++ text), r') ∧ MovedTo r r' rest := by
  induction text generalizing room sb r with
  | nil =>
    obtain ⟨r', hread, hrest', hhealthy, hsize⟩ := BufReader.readByte_progress hr hrest
    have hbyte : readLineByte sb r = .ok (.inl (trimLineEnd sb), r') := by
      simp only [readLineByte, hread, if_true]
    refine ⟨r', ?_, hrest', hhealthy, hsize⟩
    cases room <;> simp only [readLineLoop, hbyte, List.append_nil] <;> rfl
  | cons b text ih =>
    obtain ⟨hb, htext⟩ : ch '\n' ≠ b ∧ ch '\n' ∉ text := by simpa using htext
    obtain ⟨r₁, hread, hrest₁, hhealthy, hsize⟩ := BufReader.readByte_progress hr hrest
    have hbyte : readLineByte sb r = .ok (.inr b, r₁) := by
      simp only [readLineByte, hread, if_neg hb.symm]
    cases room with
    | zero => cases hroom
    | succ room =>
      obtain ⟨r', hloop, hmoved⟩ :=
        ih room (sb ++ [b]) hhealthy hrest₁ htext (Nat.le_of_succ_le_succ hroom)
      refine ⟨r', ?_, hmoved.rest_eq, hmoved.healthy, Nat.le_trans hmoved.size_le hsize⟩
      simp only [readLineLoop, hbyte]
      rw [List.append_assoc] at hloop
      exact hloop

theorem readLine_complete {line rest : Bytes} (hr : r.Healthy) (hrest : r.rest = line ++ crlf ++ rest)
    (hline : ch '\n' ∉ line) (htrim : trimLineEnd line = line) (hlen : line.length < maxChunkLineLen) :
    ∃ r', readLine r = .ok (line, r') ∧ MovedTo r r' rest := by
  have htext : ch '\n' ∉ line ++ [ch '\r'] := by
    rw [List.mem_append, not_or]
    exact ⟨hline, by decide⟩
  have hsplit : r.rest = line ++ [ch '\r'] ++ ch '\n' :: rest := by
    rw [hrest, crlf_eq]
    simp
  obtain ⟨r', hloop, hmoved⟩ := readLineLoop_complete maxChunkLineLen [] hr hsplit htext
    (by rw [List.length_append]; exact hlen)
  rw [List.nil_append, trimLineEnd_cr, htrim] at hloop
  exact ⟨r', hloop, hmoved⟩

theorem readCRLF_complete {rest : Bytes} (hr : r.Healthy) (hrest : r.rest = crlf ++ rest) :
    ∃ r', readCRLF r = .ok r' ∧ MovedTo r r' rest := by
  obtain ⟨r', hread, hrest', hhealthy, hsize⟩ :=
    BufReader.readFull_progress hr hrest (by decide)
  refine ⟨r', ?_, hrest', hhealthy, hsize⟩
  rw [readCRLF, show 2 = crlf.length by decide, hread]
  exact if_pos rfl

end Lines

/-! ## Chunk headers -/

theorem trimLineEnd_eq_self {line : Bytes} (h : ∀ b ∈ line, b ≠ ch '\r' ∧ b ≠ ch '\n') :
    trimLineEnd line = line := by
  rw [trimLineEnd]
  cases hline : line.reverse with
  | nil => rw [List.dropWhile_nil, ← hline, List.reverse_reverse]
  | cons b rest =>
    have hb := h b (List.mem_reverse.mp (hline ▸ List.mem_cons_self))
    rw [List.dropWhile_cons_of_neg (by simpa using hb), ← hline, List.reverse_reverse]

def SignatureText (sig : Bytes) : Prop := ∃ mac : Bytes, mac.length = 32 ∧ sig = hexEncode mac

theorem SignatureText.facts {sig : Bytes} (h : SignatureText sig) :
    sig.length = 64 ∧ ∀ b ∈ sig, b ≠ ch '\r' ∧ b ≠ ch '\n' := by
  obtain ⟨mac, hlen, rfl⟩ := h
  have hdigit : ∀ d < 16, hexDigitLower d ≠ ch '\r' ∧ hexDigitLower d ≠ ch '\n' := by decide
  refine ⟨by rw [length_hexEncode, hlen], ?_⟩
  intro b hb
  obtain ⟨d, hd, rfl⟩ := mem_hexEncode hb
  exact hdigit d hd

section Headers

variable (p : ChunkParams) {sig : Bytes} (size : Nat)

theorem mem_encodeHeader (hsig : SignatureText sig) :
    ∀ b ∈ encodeHeader p sig size, b ≠ ch '\r' ∧ b ≠ ch '\n' := by
  intro b hb
  rcases List.mem_append.mp hb with hb | hb
  · obtain ⟨-, hlf, hcr, -⟩ := mem_formatHex hb
    exact ⟨hcr, hlf⟩
  · split at hb
    · rcases List.mem_append.mp hb with hb | hb
      · have hname : ∀ b ∈ str ";chunk-signature=", b ≠ ch '\r' ∧ b ≠ ch '\n' :=
          forall_mem_of_all (by decide +kernel)
        exact hname b hb
      · exact hsig.facts.2 b hb
    · cases hb

variable {p size}

theorem length_encodeHeader (hsig : SignatureText sig) (hsize : size < 2 ^ 63) :
    (encodeHeader p sig size).length < maxChunkLineLen := by
  have hhex := length_formatHex hsize
  have hname : (str ";chunk-signature=").length = 17 := by decide
  rw [encodeHeader, List.length_append, maxChunkLineLen]
  split
  · rw [List.length_append, hname, hsig.facts.1]
    omega
  · rw [List.length_nil]
    omega

theorem parseChunkHeader_encodeHeader (hsig : SignatureText sig) (hsize : size < 2 ^ 63) :
    parseChunkHeader p.signed (encodeHeader p sig size) =
      .ok ((size : Int), if p.signed then sig else []) := by
  -- a size has no semicolon, so the cut is where the header puts it
  have hsemicolon : ch ';' ∉ formatHex size := fun h => (mem_formatHex h).1 rfl
  have hparse : parseChunkSize (formatHex size) = .ok (size : Int) := by
    simp only [parseChunkSize, parseInt_formatHex hsize]
    exact if_neg (by omega)
  cases hsigned : p.signed with
  | false =>
    have hcut : cut (ch ';') (encodeHeader p sig size) = (formatHex size, [], false) := by
      rw [encodeHeader, hsigned, if_neg (by decide), List.append_nil]
      exact cut_of_not_mem hsemicolon
    simp only [parseChunkHeader, hcut, hparse]
    rfl
  | true =>
    have hne : sig ≠ [] := by
      intro hnil
      have hlen := hsig.facts.1
      rw [hnil] at hlen
      cases hlen
    have hcut : cut (ch ';') (encodeHeader p sig size) =
        (formatHex size, str "chunk-signature=" ++ sig, true) := by
      rw [encodeHeader, hsigned, if_pos rfl]
      exact cut_append hsemicolon
    have hext : parseChunkExtension (str "chunk-signature=" ++ sig) true = .ok sig := by
      have hname : cut (ch '=') (str "chunk-signature" ++ ch '=' :: sig) =
          (str "chunk-signature", sig, true) := cut_append (by decide)
      have heq : str "chunk-signature=" ++ sig = str "chunk-signature" ++ ch '=' :: sig := rfl
      simp only [parseChunkExtension, heq, hname]
      rfl
    simp only [parseChunkHeader, hcut, hparse, hext, bind, Except.bind]
    rw [if_neg (by simpa using hne), if_pos trivial]

theorem readChunkHeader_complete (cr : ChunkedReader) {rest : Bytes} (hsig : SignatureText sig)
    (hsize : size < 2 ^ 63) (hr : cr.r.Healthy)
    (hrest : cr.r.rest = encodeHeader p sig size ++ crlf ++ rest) :
    ∃ r, readChunkHeader p cr =
        .ok ((size : Int), { cr with r, chunkSig := if p.signed then sig else [] }) ∧
      MovedTo cr.r r rest := by
  have hbytes := mem_encodeHeader p size hsig
  obtain ⟨r, hline, hmoved⟩ := readLine_complete hr hrest (fun h => (hbytes _ h).2 rfl)
    (trimLineEnd_eq_self hbytes) (length_encodeHeader hsig hsize)
  refine ⟨r, ?_, hmoved⟩
  rw [readChunkHeader, hline]
  simp only [parseChunkHeader_encodeHeader hsig hsize]
  rfl

theorem verifyChunk_complete {cr : ChunkedReader}
    (h : p.signed = true → cr.chunkSig = chunkSignature p cr.prevSig cr.chunkData) :
    verifyChunk p cr =
      .ok (if p.signed then { cr with prevSig := cr.chunkSig, chunkData := [] } else cr) := by
  unfold verifyChunk
  cases hsigned : p.signed with
  | false => rfl
  | true => simp [← h hsigned]

end Headers

/-! ## Trailers -/

section Trailers

variable [Unicode] {p : ChunkParams} {payload : Bytes}

theorem trailersLoop_complete {trailers : List Bytes} {fuel : Nat} {cr : ChunkedReader}
    (hr : cr.r.Healthy) (hrest : cr.r.rest = trailers.flatMap (· ++ crlf) ++ crlf)
    (hfuel : trailers.length ≤ fuel)
    (hlines : ∀ line ∈ trailers, line ≠ [] ∧ ch '\n' ∉ line ∧ trimLineEnd line = line ∧
      line.length < maxChunkLineLen)
    (hcorrect : ∀ checksum, p.checksum = some checksum → ∀ line ∈ trailers, ∀ value,
      checksumTrailer p line = some value → value = checksum cr.ckData)
    (hdeclared : ∀ checksum, p.checksum = some checksum → cr.ckSeen = true ∨
      ∃ line ∈ trailers, (checksumTrailer p line).isSome = true) :
    ∃ r ckSeen, trailersLoop p (fuel + 1) cr = .ok { cr with r, ckSeen } := by
  induction trailers generalizing fuel cr with
  | nil =>
    have hblank : cr.r.rest = [] ++ crlf ++ [] := by simpa using hrest
    obtain ⟨r, hline, -⟩ := readLine_complete hr hblank (by decide) (by decide) (by decide)
    have hseen : (p.checksum.isSome && !cr.ckSeen) = false := by
      cases hchecksum : p.checksum with
      | none => rfl
      | some checksum =>
        rcases hdeclared checksum hchecksum with hseen | ⟨line, hmem, -⟩
        · simp [hseen]
        · cases hmem
    refine ⟨cr.r, cr.ckSeen, ?_⟩
    simp only [trailersLoop, hline, hseen, if_true]
    rfl
  | cons line trailers ih =>
    rw [List.forall_mem_cons] at hlines
    obtain ⟨⟨hne, hnewline, htrim, hlen⟩, hlines⟩ := hlines
    rw [List.flatMap_cons, List.append_assoc] at hrest
    obtain ⟨r, hline, hmoved⟩ := readLine_complete hr hrest hnewline htrim hlen
    obtain ⟨fuel, rfl⟩ := Nat.exists_eq_add_one.mpr (Nat.lt_of_lt_of_le (Nat.succ_pos _) hfuel)
    have hlater : ∀ checksum, p.checksum = some checksum → ∀ line ∈ trailers, ∀ value,
        checksumTrailer p line = some value → value = checksum cr.ckData :=
      fun checksum hchecksum line hmem => hcorrect checksum hchecksum line (List.mem_cons_of_mem _ hmem)
    rw [trailersLoop]
    simp only [hline, if_neg hne]
    split
    · rename_i checksum value hchecksum hvalue
      -- the declared checksum: its value is the payload's
      rw [if_neg (not_not.mpr (hcorrect checksum hchecksum line List.mem_cons_self value hvalue))]
      obtain ⟨r', ckSeen, hloop⟩ := @ih fuel { cr with r, ckSeen := true } hmoved.healthy
        hmoved.rest_eq (Nat.le_of_succ_le_succ hfuel) hlines hlater (fun _ _ => .inl rfl)
      exact ⟨r', ckSeen, hloop⟩
    · rename_i hother
      have hstill : ∀ checksum, p.checksum = some checksum → cr.ckSeen = true ∨
          ∃ line ∈ trailers, (checksumTrailer p line).isSome = true := by
        intro checksum hchecksum
        rcases hdeclared checksum hchecksum with hseen | ⟨other, hmem, hsome⟩
        · exact .inl hseen
        · rcases List.mem_cons.mp hmem with rfl | hmem
          · obtain ⟨value, hvalue⟩ := Option.isSome_iff_exists.mp hsome
            exact absurd hvalue (hother checksum value hchecksum)
          · exact .inr ⟨other, hmem, hsome⟩
      obtain ⟨r', ckSeen, hloop⟩ := @ih fuel { cr with r } hmoved.healthy hmoved.rest_eq
        (Nat.le_of_succ_le_succ hfuel) hlines hlater hstill
      exact ⟨r', ckSeen, hloop⟩

omit [Unicode] in
theorem length_trailers (trailers : List Bytes) :
    trailers.length ≤ (trailers.flatMap (· ++ crlf) ++ crlf).length := by
  have hcrlf : crlf.length = 2 := by decide
  induction trailers with
  | nil => exact Nat.zero_le _
  | cons line trailers ih =>
    rw [List.flatMap_cons]
    simp only [List.length_append, List.length_cons, hcrlf] at ih ⊢
    omega

theorem discardTrailers_complete {trailers : List Bytes} (cr : ChunkedReader)
    (hfit : TrailersFit p payload trailers) (hr : cr.r.Healthy)
    (hrest : cr.r.rest = encodeTrailers p trailers)
    (hpayload : p.checksum.isSome = true → cr.ckData = payload) :
    ∃ r ckSeen, discardTrailers p cr = .ok { cr with r, ckSeen } := by
  cases htrailer : p.trailer with
  | false =>
    have hcrlf : cr.r.rest = crlf ++ [] := by
      rw [hrest, encodeTrailers, htrailer]
      rfl
    obtain ⟨r, hread, -⟩ := readCRLF_complete hr hcrlf
    refine ⟨r, cr.ckSeen, ?_⟩
    simp only [discardTrailers, htrailer, hread]
    rfl
  | true =>
    have hlines : cr.r.rest = trailers.flatMap (· ++ crlf) ++ crlf := by
      rw [hrest, encodeTrailers, if_pos htrailer]
    have hdata : ∀ checksum, p.checksum = some checksum → cr.ckData = payload :=
      fun checksum hchecksum => hpayload (by rw [hchecksum]; rfl)
    obtain ⟨r, ckSeen, hloop⟩ := trailersLoop_complete (p := p) hr hlines
      (hlines ▸ length_trailers trailers) hfit.lines
      (fun checksum hchecksum => by rw [hdata checksum hchecksum]; exact hfit.correct checksum hchecksum)
      (fun checksum hchecksum => by
        obtain ⟨line, hmem, hvalue⟩ := hfit.declared checksum hchecksum
        exact .inr ⟨line, hmem, by rw [hvalue]; rfl⟩)
    refine ⟨r, ckSeen, ?_⟩
    rw [discardTrailers, htrailer]
    exact hloop

end Trailers

/-! ## Where the reader stands in an encoded stream -/

section Positions

variable [Unicode] (p : ChunkParams) (payload : Bytes) (trailers : List Bytes)

/-- In front of the header of the first of the chunks to come, which is signed after `prev`. -/
structure AwaitsHeader (delivered prev : Bytes) (chunks : List Bytes) (cr : ChunkedReader) : Prop where
  err : cr.err = none
  eof : cr.eof = false
  healthy : cr.r.Healthy
  ckData : p.checksum.isSome = true → cr.ckData = delivered
  remaining : cr.remaining = 0
  undecoded : cr.undecoded = chunks.flatten.length
  chain : p.signed = true → cr.prevSig = prev ∧ cr.chunkData = []
  rest : cr.r.rest = (if cr.started then crlf else []) ++ encodeStream p prev chunks trailers
  payload_eq : delivered ++ chunks.flatten = payload

/-- Inside a chunk with this signature, of which `todo` is still to be delivered. -/
structure InsideChunk (delivered sig todo : Bytes) (chunks : List Bytes) (cr : ChunkedReader) : Prop where
  err : cr.err = none
  eof : cr.eof = false
  healthy : cr.r.Healthy
  ckData : p.checksum.isSome = true → cr.ckData = delivered
  started : cr.started = true
  remaining : cr.remaining = todo.length
  undecoded : cr.undecoded = chunks.flatten.length
  chain : p.signed = true →
    cr.chunkSig = sig ∧ chunkSignature p cr.prevSig (cr.chunkData ++ todo) = sig
  rest : cr.r.rest = todo ++ crlf ++ encodeStream p sig chunks trailers
  payload_eq : delivered ++ todo ++ chunks.flatten = payload

inductive Position (delivered : Bytes) (cr : ChunkedReader) : Prop
  | header {prev : Bytes} {chunks : List Bytes} (hne : ∀ chunk ∈ chunks, chunk ≠ [])
    (h : AwaitsHeader p payload trailers delivered prev chunks cr)
  | within {sig todo : Bytes} {chunks : List Bytes} (hne : ∀ chunk ∈ chunks, chunk ≠ [])
    (htodo : todo ≠ []) (h : InsideChunk p payload trailers delivered sig todo chunks cr)
  | ended (err : cr.err = none) (eof : cr.eof = true) (hall : delivered = payload)

/-- A bound on the calls it takes to come to the end. -/
def ChunkedReader.stepsLeft (cr : ChunkedReader) : Nat := if cr.eof then 0 else cr.r.size + 1

variable {p payload trailers} {delivered prev sig todo chunk : Bytes} {chunks : List Bytes}
  {cr : ChunkedReader}

omit [Unicode] in
theorem stepsLeft_of_not_eof (h : cr.eof = false) : cr.stepsLeft = cr.r.size + 1 := by
  rw [ChunkedReader.stepsLeft, h]
  rfl

omit [Unicode] in
theorem chunkSignature_text (hmac : ∀ key data, (p.crypto.hmac key data).length = 32)
    (prev data : Bytes) : SignatureText (chunkSignature p prev data) :=
  ⟨_, hmac _ _, rfl⟩

theorem closing_complete (cr : ChunkedReader) (hfit : TrailersFit p payload trailers) (hr : cr.r.Healthy)
    (hrest : cr.r.rest = encodeTrailers p trailers)
    (hsig : p.signed = true → cr.chunkSig = chunkSignature p cr.prevSig cr.chunkData)
    (hpayload : p.checksum.isSome = true → cr.ckData = payload) :
    ∃ verified cr', verifyChunk p cr = .ok verified ∧ verified.undecoded = cr.undecoded ∧
      discardTrailers p verified = .ok cr' ∧ cr'.err = cr.err := by
  have hverify := verifyChunk_complete hsig
  split at hverify
  · obtain ⟨r, ckSeen, hdiscard⟩ := discardTrailers_complete
      { cr with prevSig := cr.chunkSig, chunkData := [] } hfit hr hrest hpayload
    exact ⟨_, _, hverify, rfl, hdiscard, rfl⟩
  · obtain ⟨r, ckSeen, hdiscard⟩ := discardTrailers_complete cr hfit hr hrest hpayload
    exact ⟨_, _, hverify, rfl, hdiscard, rfl⟩

omit [Unicode] in
theorem endChunk_complete {rest : Bytes} (hr : cr.r.Healthy)
    (hrest : cr.r.rest = (if cr.started then crlf else []) ++ rest) :
    ∃ r, endChunk cr = .ok { cr with r } ∧ MovedTo cr.r r rest := by
  unfold endChunk
  split at hrest
  · rename_i hstarted
    obtain ⟨r, hread, hmoved⟩ := readCRLF_complete hr hrest
    refine ⟨r, ?_, hmoved⟩
    rw [if_pos hstarted, hread]
    rfl
  · rename_i hstarted
    exact ⟨cr.r, if_neg hstarted, hrest, hr, Nat.le_refl _⟩

theorem nextChunk_data (hmac : ∀ key data, (p.crypto.hmac key data).length = 32)
    (hlen : payload.length < 2 ^ 63) (hchunk : chunk ≠ [])
    (h : AwaitsHeader p payload trailers delivered prev (chunk :: chunks) cr) :
    ∃ cr', nextChunk p cr = .ok cr' ∧ cr'.r.size ≤ cr.r.size ∧
      InsideChunk p payload trailers delivered (chunkSignature p prev chunk) chunk chunks cr' := by
  have hpayload := congrArg List.length h.payload_eq
  have hundecoded := h.undecoded
  have hpos := List.length_pos_iff.mpr hchunk
  simp only [List.flatten_cons, List.length_append] at hpayload hundecoded
  -- the reader stands at the end of a chunk or of nothing, and the next header follows
  obtain ⟨r₁, hend, hmoved₁⟩ := endChunk_complete h.healthy h.rest
  have hsize : chunk.length < 2 ^ 63 := by omega
  have hheader : r₁.rest = encodeHeader p (chunkSignature p prev chunk) chunk.length ++ crlf ++
      (chunk ++ crlf ++ encodeStream p (chunkSignature p prev chunk) chunks trailers) := by
    rw [hmoved₁.rest_eq, encodeStream, encodeChunks, encodeStream]
    simp only [List.append_assoc]
  obtain ⟨r₂, hread, hmoved₂⟩ := readChunkHeader_complete { cr with r := r₁ }
    (chunkSignature_text hmac prev chunk) hsize hmoved₁.healthy hheader
  refine ⟨{ cr with
      r := r₂
      chunkSig := if p.signed then chunkSignature p prev chunk else []
      started := true
      undecoded := cr.undecoded - chunk.length
      remaining := chunk.length }, ?_, (hmoved₁.trans hmoved₂).size_le, h.err, h.eof,
    hmoved₂.healthy, h.ckData, rfl, rfl, ?_, ?_, hmoved₂.rest_eq, ?_⟩
  · refine bind_eq_ok.mpr ⟨_, hend, bind_eq_ok.mpr ⟨_, hread, ?_⟩⟩
    dsimp only
    rw [if_neg (by omega), if_neg (by omega)]
  · dsimp only
    omega
  · intro hsigned
    obtain ⟨hprev, hdata⟩ := h.chain hsigned
    dsimp only
    rw [if_pos hsigned, hprev, hdata]
    exact ⟨rfl, rfl⟩
  · rw [List.append_assoc]
    exact h.payload_eq

theorem nextChunk_end (hmac : ∀ key data, (p.crypto.hmac key data).length = 32)
    (hfit : TrailersFit p payload trailers)
    (h : AwaitsHeader p payload trailers delivered prev [] cr) :
    ∃ cr', nextChunk p cr = .ok cr' ∧ cr'.eof = true := by
  have hpayload : delivered = payload := by simpa using h.payload_eq
  have hundecoded : cr.undecoded = 0 := h.undecoded
  obtain ⟨r₁, hend, hmoved₁⟩ := endChunk_complete h.healthy h.rest
  obtain ⟨r₂, hread, hmoved₂⟩ := readChunkHeader_complete { cr with r := r₁ }
    (chunkSignature_text hmac prev []) (by decide) hmoved₁.healthy hmoved₁.rest_eq
  obtain ⟨verified, cr', hverify, hleft, hdiscard, -⟩ := closing_complete
    { cr with
      r := r₂
      chunkSig := if p.signed then chunkSignature p prev [] else []
      started := true
      undecoded := cr.undecoded - 0 } hfit hmoved₂.healthy hmoved₂.rest_eq
    (fun hsigned => by
      obtain ⟨hprev, hdata⟩ := h.chain hsigned
      dsimp only
      rw [if_pos hsigned, hprev, hdata])
    (fun hck => (h.ckData hck).trans hpayload)
  -- the last chunk is empty: nothing is left undecoded, so the trailers follow
  refine ⟨{ cr' with eof := true }, bind_eq_ok.mpr ⟨_, hend, bind_eq_ok.mpr ⟨_, hread, ?_⟩⟩, rfl⟩
  dsimp only
  rw [if_neg (by simp [hundecoded]), if_pos Nat.cast_zero]
  refine bind_eq_ok.mpr ⟨verified, hverify, ?_⟩
  rw [if_neg (by simp [hleft, hundecoded])]
  exact bind_eq_ok.mpr ⟨cr', hdiscard, rfl⟩

/-- With a chunk delivered, more chunks are to come or the stream ends here. -/
theorem finishChunk_complete (hmac : ∀ key data, (p.crypto.hmac key data).length = 32)
    (hfit : TrailersFit p payload trailers) (hne : ∀ chunk ∈ chunks, chunk ≠ [])
    (h : InsideChunk p payload trailers delivered sig [] chunks cr) :
    ∃ cr', finishChunk p cr = .ok cr' ∧ cr'.stepsLeft ≤ cr.r.size + 1 ∧
      Position p payload trailers delivered cr' := by
  have hpayload : delivered ++ chunks.flatten = payload := by simpa using h.payload_eq
  have hchain : p.signed = true → cr.chunkSig = chunkSignature p cr.prevSig cr.chunkData := by
    intro hsigned
    obtain ⟨hsig, hnext⟩ := h.chain hsigned
    rw [List.append_nil] at hnext
    rw [hsig, hnext]
  -- the next header is signed after this chunk
  obtain ⟨verified, hverify, hr, hstarted, hawaits⟩ : ∃ verified, verifyChunk p cr = .ok verified ∧
      verified.r = cr.r ∧ verified.started = true ∧
      AwaitsHeader p payload trailers delivered sig chunks verified := by
    have hverify := verifyChunk_complete hchain
    have hrest : cr.r.rest = (if cr.started then crlf else []) ++ encodeStream p sig chunks trailers := by
      rw [h.rest, h.started]
      rfl
    split at hverify
    · rename_i hsigned
      exact ⟨_, hverify, rfl, h.started, h.err, h.eof, h.healthy, h.ckData, h.remaining, h.undecoded,
        fun _ => ⟨(h.chain hsigned).1, rfl⟩, hrest, hpayload⟩
    · rename_i hsigned
      exact ⟨_, hverify, rfl, h.started, h.err, h.eof, h.healthy, h.ckData, h.remaining, h.undecoded,
        fun hs => absurd hs hsigned, hrest, hpayload⟩
  cases chunks with
  | cons chunk chunks =>
    refine ⟨verified, bind_eq_ok.mpr ⟨verified, hverify, if_neg ?_⟩, ?_, .header hne hawaits⟩
    swap
    · rw [stepsLeft_of_not_eof hawaits.eof, hr]
    have hpos := List.length_pos_iff.mpr (hne chunk List.mem_cons_self)
    rw [hawaits.undecoded, List.flatten_cons, List.length_append]
    omega
  | nil =>
    rw [List.flatten_nil, List.append_nil] at hpayload
    have hrest := hawaits.rest
    rw [hstarted, if_pos rfl] at hrest
    obtain ⟨r₁, hcrlf, hmoved₁⟩ := readCRLF_complete hawaits.healthy hrest
    obtain ⟨r₂, hread, hmoved₂⟩ := readChunkHeader_complete { verified with r := r₁ }
      (chunkSignature_text hmac sig []) (by decide) hmoved₁.healthy hmoved₁.rest_eq
    obtain ⟨verified', cr', hverify', -, hdiscard, herr⟩ := closing_complete
      { verified with r := r₂, chunkSig := if p.signed then chunkSignature p sig [] else [] }
      hfit hmoved₂.healthy hmoved₂.rest_eq
      (fun hsigned => by
        obtain ⟨hprev, hdata⟩ := hawaits.chain hsigned
        dsimp only
        rw [if_pos hsigned, hprev, hdata])
      (fun hck => (hawaits.ckData hck).trans hpayload)
    refine ⟨{ cr' with eof := true }, bind_eq_ok.mpr ⟨verified, hverify, ?_⟩, Nat.zero_le _,
      .ended (herr.trans hawaits.err) rfl hpayload⟩
    have hexhausted : verified.undecoded = 0 := hawaits.undecoded
    rw [if_pos hexhausted]
    refine bind_eq_ok.mpr ⟨r₁, hcrlf, bind_eq_ok.mpr ⟨_, hread, ?_⟩⟩
    dsimp only
    rw [if_neg (by simp)]
    exact bind_eq_ok.mpr ⟨verified', hverify', bind_eq_ok.mpr ⟨cr', hdiscard, rfl⟩⟩

theorem deliver_read {n : Nat} {d : Bytes} {r : BufReader}
    (hread : cr.r.read (min n cr.remaining.toNat) = (d, none, r)) :
    ((afterData p cr r d).remaining ≠ 0 → deliver p n cr = (d, none, afterData p cr r d)) ∧
      ∀ cr', (afterData p cr r d).remaining = 0 → finishChunk p (afterData p cr r d) = .ok cr' →
        deliver p n cr = (d, none, cr') := by
  unfold deliver
  rw [hread]
  constructor
  · intro hmore
    simp [hmore]
  · intro cr' hdone hfinish
    simp [hdone, hfinish]

theorem deliver_complete {n : Nat} (hmac : ∀ key data, (p.crypto.hmac key data).length = 32)
    (hfit : TrailersFit p payload trailers) (hne : ∀ chunk ∈ chunks, chunk ≠ []) (hn : 0 < n)
    (htodo : todo ≠ []) (h : InsideChunk p payload trailers delivered sig todo chunks cr) :
    ∃ d cr', deliver p n cr = (d, none, cr') ∧ cr'.stepsLeft < cr.r.size + 1 ∧
      Position p payload trailers (delivered ++ d) cr' := by
  have hpos := List.length_pos_iff.mpr htodo
  have hroom : min n cr.remaining.toNat = min n todo.length := by rw [h.remaining]; rfl
  have hstep := BufReader.readStep cr.r (min n todo.length)
  rcases hread : cr.r.read (min n todo.length) with ⟨d, e, r⟩
  rw [hread] at hstep
  dsimp only at hstep
  have hlong : min n todo.length < cr.r.rest.length := by
    rw [h.rest, crlf_eq]
    simp only [List.length_append, List.length_cons]
    omega
  obtain rfl := hstep.none_of_lt h.healthy (by omega) hlong
  have hsize := hstep.size_lt rfl (by omega)
  -- what was handed out is the front of what the chunk had left
  have hlen : d.length ≤ todo.length := Nat.le_trans hstep.length_le (Nat.min_le_right _ _)
  have hrest := hstep.rest_eq
  rw [h.rest, List.append_assoc] at hrest
  obtain ⟨todo', rfl⟩ := List.prefix_of_prefix_length_le ⟨_, hrest.symm⟩ (List.prefix_append _ _) hlen
  rw [List.append_assoc, List.append_cancel_left_eq] at hrest
  have hinside : InsideChunk p payload trailers (delivered ++ d) sig todo' chunks (afterData p cr r d) := by
    refine ⟨h.err, h.eof, hstep.healthy h.healthy, fun hck => ?_, h.started, ?_, h.undecoded,
      fun hsigned => ?_, ?_, ?_⟩
    · rw [afterData, if_pos hck, h.ckData hck]
    · have hremaining := h.remaining
      rw [List.length_append] at hremaining
      dsimp only [afterData]
      omega
    · obtain ⟨hsig, hnext⟩ := h.chain hsigned
      rw [← List.append_assoc] at hnext
      dsimp only [afterData]
      rw [if_pos hsigned]
      exact ⟨hsig, hnext⟩
    · rw [List.append_assoc]
      exact hrest.symm
    · rw [List.append_assoc delivered]
      exact h.payload_eq
  rw [← hroom] at hread
  cases todo' with
  | nil =>
    obtain ⟨cr', hfinish, hleft, hposition⟩ := finishChunk_complete hmac hfit hne hinside
    exact ⟨d, cr', (deliver_read hread).2 cr' hinside.remaining hfinish,
      Nat.lt_of_le_of_lt hleft (Nat.succ_lt_succ hsize), hposition⟩
  | cons b todo' =>
    have hmore : (afterData p cr r d).remaining ≠ 0 := by
      rw [hinside.remaining, List.length_cons]
      omega
    refine ⟨d, _, (deliver_read hread).1 hmore, ?_, .within hne (List.cons_ne_nil b todo') hinside⟩
    rw [stepsLeft_of_not_eof hinside.eof]
    exact Nat.succ_lt_succ hsize

theorem read_complete {n : Nat} (hmac : ∀ key data, (p.crypto.hmac key data).length = 32)
    (hlen : payload.length < 2 ^ 63) (hfit : TrailersFit p payload trailers) (hn : 0 < n)
    (h : Position p payload trailers delivered cr) :
    (∃ d cr', cr.read p n = (d, none, cr') ∧ cr'.stepsLeft < cr.stepsLeft ∧
        Position p payload trailers (delivered ++ d) cr') ∨
      delivered = payload ∧ ∃ cr', cr.read p n = ([], some (.io .eof), cr') := by
  unfold ChunkedReader.read
  cases h with
  | ended herr heof hall =>
    right
    rw [herr, heof]
    exact ⟨hall, cr, rfl⟩
  | within hne htodo h =>
    left
    obtain ⟨d, cr', hdeliver, hleft, hposition⟩ := deliver_complete hmac hfit hne hn htodo h
    have hpos := List.length_pos_iff.mpr htodo
    refine ⟨d, cr', ?_, ?_, hposition⟩
    · rw [h.err, h.eof]
      simp only [Bool.false_eq_true, if_false]
      rw [if_neg (by rw [h.remaining]; omega), hdeliver]
    · rw [stepsLeft_of_not_eof h.eof]
      exact hleft
  | @header prev chunks hne h =>
    -- a header is read first: the terminal one ends the call, any other is followed by data
    rw [stepsLeft_of_not_eof h.eof, h.err, h.eof]
    simp only [Bool.false_eq_true, if_false]
    rw [if_pos h.remaining]
    cases chunks with
    | nil =>
      right
      obtain ⟨cr', hnext, heof⟩ := nextChunk_end hmac hfit h
      refine ⟨by simpa using h.payload_eq, cr', ?_⟩
      rw [hnext]
      exact if_pos heof
    | cons chunk chunks =>
      left
      rw [List.forall_mem_cons] at hne
      obtain ⟨cr₁, hnext, hsize, hinside⟩ := nextChunk_data hmac hlen hne.1 h
      obtain ⟨d, cr', hdeliver, hleft, hposition⟩ := deliver_complete hmac hfit hne.2 hn hne.1 hinside
      refine ⟨d, cr', ?_, Nat.lt_of_lt_of_le hleft (Nat.succ_le_succ hsize), hposition⟩
      rw [hnext, ← hdeliver]
      dsimp only
      rw [hinside.eof, if_neg Bool.false_ne_true]

theorem reads_complete (hmac : ∀ key data, (p.crypto.hmac key data).length = 32)
    (hlen : payload.length < 2 ^ 63) (hfit : TrailersFit p payload trailers)
    (h : Position p payload trailers delivered cr) {sizes : Nat → Nat} (hsizes : ∀ i, 0 < sizes i) :
    ∃ pieces : List Bytes, delivered ++ pieces.flatten = payload ∧
      cr.reads p ((List.range (pieces.length + 1)).map sizes) =
        pieces.map (·, none) ++ [([], some (.io .eof))] := by
  induction hsteps : cr.stepsLeft using Nat.strong_induction_on generalizing cr delivered sizes with
  | _ steps ih =>
    rcases read_complete hmac hlen hfit (hsizes 0) h with ⟨d, cr', hread, hless, hposition⟩ | ⟨hall, cr', hread⟩
    · obtain ⟨pieces, hpieces, hreads⟩ := ih cr'.stepsLeft (hsteps ▸ hless) hposition
        (fun i => hsizes (i + 1)) rfl
      refine ⟨d :: pieces, by rw [List.flatten_cons, ← List.append_assoc]; exact hpieces, ?_⟩
      rw [List.length_cons, List.range_succ_eq_map, List.map_cons, List.map_map, ChunkedReader.reads, hread]
      exact congrArg ((d, none) :: ·) hreads
    · refine ⟨[], by rw [List.flatten_nil, List.append_nil]; exact hall, ?_⟩
      simp [ChunkedReader.reads, hread]

omit [Unicode] in
theorem newChunkedReader_awaits (vr : Verified) (body : Source) (chunks : List Bytes)
    (hbody : body.bytes = encodeStream p vr.signature chunks trailers) (hsrc : body.Progresses) :
    AwaitsHeader p chunks.flatten trailers [] vr.signature chunks
      (newChunkedReader p vr body chunks.flatten.length) :=
  ⟨rfl, rfl, BufReader.new_healthy hsrc, fun _ => rfl, rfl, rfl, fun hsigned => ⟨if_pos hsigned, rfl⟩,
    hbody, rfl⟩

/-- A payload encoded in chunks is decoded, and then the end is reported: however it was cut,
    however the stream arrives and however it is read. -/
theorem chunkedReader_complete (crypto : Crypto) (newHash : Bytes → Option (Bytes → Bytes))
    (formatAmzDate : Time → Bytes) (vr : Verified) (trailerAlg : Bytes) (chunks trailers : List Bytes)
    (body : Source) (sizes : Nat → Nat)
    (hmac : ∀ key data, (crypto.hmac key data).length = 32) (hlen : chunks.flatten.length < 2 ^ 63)
    (hchunks : ∀ chunk ∈ chunks, chunk ≠ [])
    (hfit : TrailersFit (chunkParams crypto newHash formatAmzDate vr trailerAlg) chunks.flatten trailers)
    (hbody : body.bytes = encodeStream (chunkParams crypto newHash formatAmzDate vr trailerAlg)
      vr.signature chunks trailers)
    (hsrc : body.Progresses) (hsizes : ∀ i, 0 < sizes i) :
    ∃ pieces : List Bytes, pieces.flatten = chunks.flatten ∧
      (newChunkedReader (chunkParams crypto newHash formatAmzDate vr trailerAlg) vr body
          chunks.flatten.length).reads (chunkParams crypto newHash formatAmzDate vr trailerAlg)
          ((List.range (pieces.length + 1)).map sizes) =
        pieces.map (·, none) ++ [([], some (.io .eof))] :=
  reads_complete hmac hlen hfit (.header hchunks (newChunkedReader_awaits vr body chunks hbody hsrc)) hsizes

end Positions

/-- Functions of which every signature has the length of a real one. -/
def wideCrypto : Crypto where
  sha256 := id
  hmac _ _ := List.replicate 32 1

def wideParams : ChunkParams :=
  chunkParams wideCrypto (fun _ => some id) (fun _ => str "date") trailerVerified (str "crc32")

/-- The stream of two chunks and a checksum, in fragments of eight bytes with a pause before each. -/
def pausingBody : Source where
  fragments := ((encodeStream wideParams (str "seed") [str "abc", str "de"]
    [str "x-amz-checksum-CRC32: abcde"]).toChunks 8).flatMap ([[], ·])
  final := .eof
  finalWithData := false

theorem pausingBody_complete :
    let _ := asciiTables
    ∃ pieces : List Bytes, pieces.flatten = str "abcde" ∧
      (newChunkedReader wideParams trailerVerified pausingBody 5).reads wideParams
          ((List.range (pieces.length + 1)).map fun i => i % 2 + 1) =
        pieces.map (·, none) ++ [([], some (.io .eof))] := by
  intro _
  have hbody : pausingBody.bytes = encodeStream wideParams trailerVerified.signature
      [str "abc", str "de"] [str "x-amz-checksum-CRC32: abcde"] := by decide +kernel
  have hfit : TrailersFit wideParams (str "abcde") [str "x-amz-checksum-CRC32: abcde"] := by
    have hchecksum : wideParams.checksum = some id := rfl
    have htrailer : checksumTrailer wideParams (str "x-amz-checksum-CRC32: abcde") = some (str "abcde") := by
      decide +kernel
    refine ⟨by decide, ?_, ?_⟩
    · intro checksum h line hline value hvalue
      obtain rfl := Option.some.inj (hchecksum.symm.trans h)
      rw [List.mem_singleton.mp hline, htrailer] at hvalue
      exact (Option.some.inj hvalue).symm
    · intro checksum h
      obtain rfl := Option.some.inj (hchecksum.symm.trans h)
      exact ⟨_, List.mem_cons_self, htrailer⟩
  -- the source has fewer than a hundred fragments, so it cannot pause that often
  have hsrc : pausingBody.Progresses := by
    intro back hback _
    calc (back.takeWhile (· = [])).length
        ≤ back.length := (List.takeWhile_sublist _).length_le
      _ ≤ pausingBody.fragments.length := hback.length_le
      _ < 100 := by decide +kernel
  exact chunkedReader_complete wideCrypto (fun _ => some id) (fun _ => str "date") trailerVerified
    (str "crc32") [str "abc", str "de"] [str "x-amz-checksum-CRC32: abcde"] pausingBody
    (fun i => i % 2 + 1) (fun _ _ => rfl) (by decide) (by decide) hfit hbody hsrc (fun _ => Nat.succ_pos _)

end S3Gateway.Sigv4
