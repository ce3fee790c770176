import S3Gateway.Go.Space
import S3Gateway.S3gw.BodyReading
import S3Gateway.Sigv4.ChunkedComplete

/-! # Declared trailers

A request names its trailers on any number of `x-amz-trailer` lines.  The first line decides
what is verified, and only a reader of an aws-chunked body verifies it. -/

namespace S3Gateway.Sigv4

open Go

/-! ## Streams that show a trailer -/

section Streams

theorem mem_of_mem_trimLineEnd {s : Bytes} {b : UInt8} (h : b ∈ trimLineEnd s) : b ∈ s := by
  have hdrop := List.mem_reverse.mp h
  exact List.mem_reverse.mp ((List.dropWhile_suffix _).mem hdrop)

theorem FramingLine.mem {stream line rest : Bytes} (h : FramingLine stream line rest) {b : UInt8} :
    (b ∈ line → b ∈ stream) ∧ (b ∈ rest → b ∈ stream) := by
  cases h with
  | ended _ =>
    refine ⟨fun hb => List.mem_append_left _ (mem_of_mem_trimLineEnd hb), fun hb => ?_⟩
    exact List.mem_append_right _ (List.mem_cons_of_mem _ hb)
  | atEnd _ _ => exact ⟨mem_of_mem_trimLineEnd, nofun⟩

theorem Trailers.mem {stream : Bytes} {lines : List Bytes} (h : Trailers stream lines) {line : Bytes}
    (hline : line ∈ lines) {b : UInt8} (hb : b ∈ line) : b ∈ stream := by
  induction h with
  | none => cases hline
  | blank _ => cases hline
  | line hframing _ _ ih =>
    cases hline with
    | head => exact hframing.mem.1 hb
    | tail _ hline => exact hframing.mem.2 (ih hline)

variable {p : ChunkParams}

/-- The bytes of a chunk header are those of a number, a name and a signature. -/
theorem colon_not_mem_encodeHeader {sig : Bytes} (hsig : SignatureText sig) (size : Nat) :
    ch ':' ∉ encodeHeader p sig size := by
  have hdigit : ∀ d < 16, hexDigitLower d ≠ ch ':' := by decide
  have hname : ch ':' ∉ str ";chunk-signature=" := by decide
  have hsize : ch ':' ∉ formatHex size := by
    unfold formatHex
    split
    · decide
    · intro hmem
      obtain ⟨d, hd, hbyte⟩ := List.mem_map.mp hmem
      exact hdigit d (Nat.digits_lt_base (by decide) (List.mem_reverse.mp hd)) hbyte
  intro hmem
  rcases List.mem_append.mp hmem with hmem | hmem
  · exact hsize hmem
  · split at hmem
    · rcases List.mem_append.mp hmem with hmem | hmem
      · exact hname hmem
      · obtain ⟨mac, -, rfl⟩ := hsig
        obtain ⟨d, hd, hbyte⟩ := mem_hexEncode hmem
        exact hdigit d hd hbyte.symm
    · cases hmem

theorem colon_not_mem_encodeStream (hmac : ∀ key data, (p.crypto.hmac key data).length = 32) {chunks : List Bytes}
    (hchunks : ∀ chunk ∈ chunks, ch ':' ∉ chunk) (seed : Bytes) : ch ':' ∉ encodeStream p seed chunks [] := by
  have hcrlf : ch ':' ∉ crlf := by decide
  have hheader (prev data : Bytes) (size : Nat) :
      ch ':' ∉ encodeHeader p (chunkSignature p prev data) size :=
    colon_not_mem_encodeHeader (chunkSignature_text hmac prev data) size
  have hencoded : ch ':' ∉ encodeChunks p seed chunks := by
    induction chunks generalizing seed with
    | nil => simp [encodeChunks, hheader, hcrlf]
    | cons chunk chunks ih =>
      rw [List.forall_mem_cons] at hchunks
      simp [encodeChunks, hheader, hcrlf, hchunks.1, ih hchunks.2]
  simp [encodeStream, encodeTrailers, hencoded, hcrlf]

variable [Unicode]

theorem colon_mem_of_checksumTrailer {line value : Bytes} (h : checksumTrailer p line = some value) :
    ch ':' ∈ line := by
  obtain ⟨-, hcut⟩ | ⟨name, rest, -, rfl, -⟩ := cut_cases (ch ':') line
  · simp [checksumTrailer, hcut] at h
  · exact List.mem_append_right _ List.mem_cons_self

theorem ChunkStream.colon_mem {payload prev stream data : Bytes} (h : ChunkStream p payload prev stream data)
    (hchecksum : p.checksum.isSome = true) : ch ':' ∈ stream := by
  induction h with
  | data hline _ _ _ _ ih => exact hline.mem.2 (List.mem_append_right _ ih)
  | terminal hline _ _ htrailers =>
    obtain ⟨checksum, hsome⟩ := Option.isSome_iff_exists.mp hchecksum
    obtain ⟨lines, hlines, ⟨line, hmem, hvalue⟩, -⟩ := htrailers checksum hsome
    exact hline.mem.2 (hlines.mem hmem (colon_mem_of_checksumTrailer hvalue))

end Streams

end S3Gateway.Sigv4

namespace S3Gateway.S3gw

open Go S3err Sigv4

/-! ## Names -/

section Names

variable [Unicode]

def trailerNames (line : Bytes) : List Bytes :=
  ((split (ch ',') line).map fun part => toLower (trimSpace part)).filter (· ≠ [])

def trailerLines (h : Header) : List Bytes := h.valuesOf (str "x-amz-trailer")

def declaredTrailers (h : Header) : List Bytes := (trailerLines h).flatMap trailerNames

def furtherTrailers (h : Header) : List Bytes := (trailerLines h).tail.flatMap trailerNames

theorem trailerNames_nil : trailerNames [] = [] := by
  have htrim : trimSpace [] = [] := by decide
  have hlower : toLower [] = [] := rfl
  simp [trailerNames, split, htrim, hlower]

theorem declaredTrailers_eq (h : Header) :
    declaredTrailers h = trailerNames (h.get (str "x-amz-trailer")) ++ furtherTrailers h := by
  unfold declaredTrailers furtherTrailers trailerLines Header.get
  cases h.valuesOf (str "x-amz-trailer") with
  | nil => simp [trailerNames_nil]
  | cons line lines => simp

theorem lookupAlgorithm_nil : lookupAlgorithm [] = none := by
  unfold lookupAlgorithm
  rw [List.find?_eq_none]
  intro a _ hfold
  have hascii : ∀ b ∈ a.name, b < 0x80 := by
    apply forall_mem_of_all
    cases a <;> decide +kernel
  have hne : a.name ≠ [] := by cases a <;> decide +kernel
  have hnil : runes [] = [] := rfl
  simp [equalFold, runes_ascii hascii, hnil, hne] at hfold

/-- The loop over the names of a line, of which at most one is declared in the end. -/
theorem trailerLoop_names {parts : List Bytes} {before alg : Bytes} (h : trailerLoop parts before = some alg) :
    let names := (parts.map fun part => toLower (trimSpace part)).filter (· ≠ [])
    (names = [] ∧ alg = before) ∨ (before = [] ∧ alg ≠ [] ∧ names = [headerPrefix ++ alg]) := by
  induction parts generalizing before with
  | nil =>
    cases h
    exact .inl ⟨rfl, rfl⟩
  | cons part rest ih =>
    rw [trailerLoop] at h
    rw [List.map_cons]
    split at h
    · rename_i hblank
      rw [List.filter_cons_of_neg (by simp [hblank])]
      exact ih h
    · rename_i hname
      rw [List.filter_cons_of_pos (by simp [hname])]
      split at h
      · cases h
      · rename_i a hcut
        split at h
        · rename_i hcond
          obtain ⟨hcomputable, rfl⟩ := hcond
          have hne : a ≠ [] := by
            rintro rfl
            rw [lookupAlgorithm_nil] at hcomputable
            cases hcomputable
          -- the name just found leaves no room for another
          obtain ⟨hnone, rfl⟩ | ⟨habs, -⟩ := ih h
          · exact .inr ⟨rfl, hne, by rw [hnone, cutPrefix_eq_some.mp hcut]⟩
          · exact absurd habs hne
        · cases h

theorem trailerAlgorithm_names {h : Header} {alg : Bytes} (halg : trailerAlgorithm h = some alg) :
    trailerNames (h.get (str "x-amz-trailer")) = if alg = [] then [] else [headerPrefix ++ alg] := by
  obtain ⟨hnone, rfl⟩ | ⟨-, hne, hnames⟩ := trailerLoop_names halg
  · rw [if_pos rfl]
    exact hnone
  · rw [if_neg hne]
    exact hnames

end Names

/-! ## Bodies that can be read to their end -/

section Bodies

def onePiece (bytes : Bytes) : Source where
  fragments := [bytes]
  final := .eof
  finalWithData := true

theorem onePiece_bytes (bytes : Bytes) : (onePiece bytes).bytes = bytes := by simp [onePiece, Source.bytes]

theorem onePiece_progresses (bytes : Bytes) : (onePiece bytes).Progresses := by
  intro back hback _
  have hlen : back.length ≤ 1 := hback.length_le
  calc (back.takeWhile (· = [])).length
      ≤ back.length := (List.takeWhile_sublist _).length_le
    _ < 100 := by omega

/-- A payload of zeros, in one chunk if it is not empty. -/
def zeroChunks (n : Nat) : List Bytes := if n = 0 then [] else [List.replicate n 0]

theorem flatten_zeroChunks (n : Nat) : (zeroChunks n).flatten = List.replicate n 0 := by
  unfold zeroChunks
  split
  · next hzero => simp [hzero]
  · simp

variable [Unicode] {crypto : Crypto}

theorem readsToEOF_of_reads {p : ChunkParams} {cr : ChunkedReader} {sizes : List Nat} {pieces : List Bytes}
    (h : cr.reads p sizes = pieces.map (·, none) ++ [([], some (.io .eof))]) :
    ReadsToEOF crypto (.chunked p cr) pieces.flatten := by
  induction pieces generalizing cr sizes with
  | nil =>
    cases sizes with
    | nil => cases h
    | cons n sizes =>
      rcases hread : cr.read p n with ⟨d, e, cr'⟩
      simp only [ChunkedReader.reads, hread, List.map_nil, List.nil_append, List.cons.injEq, Prod.mk.injEq] at h
      obtain ⟨⟨rfl, rfl⟩, -⟩ := h
      exact .last (n := n) (show _ = (_, _, .chunked p cr') by rw [BodyReader.read, hread]; rfl)
  | cons piece pieces ih =>
    cases sizes with
    | nil => cases h
    | cons n sizes =>
      rcases hread : cr.read p n with ⟨d, e, cr'⟩
      simp only [ChunkedReader.reads, hread, List.map_cons, List.cons_append, List.cons.injEq, Prod.mk.injEq] at h
      obtain ⟨⟨rfl, rfl⟩, hrest⟩ := h
      rw [List.flatten_cons]
      exact .more (n := n) (by rw [BodyReader.read, hread]) (ih hrest)

theorem exists_chunked_body {digest : Algorithm → Bytes → Bytes} {formatAmzDate : Time → Bytes}
    {verified : Verified} {trailerAlg : Bytes} (hmac : ∀ key data, (crypto.hmac key data).length = 32)
    {n : Nat} (hn : n < 2 ^ 63) {trailers : List Bytes}
    (hfit : TrailersFit (readerParams crypto digest formatAmzDate verified trailerAlg) (List.replicate n 0) trailers) :
    ∃ body : Source, body.bytes = encodeStream (readerParams crypto digest formatAmzDate verified trailerAlg)
        verified.signature (zeroChunks n) trailers ∧
      ReadsToEOF crypto (openBody crypto (newHash digest) formatAmzDate verified body (.chunked trailerAlg n))
        (List.replicate n 0) := by
  refine ⟨onePiece (encodeStream (readerParams crypto digest formatAmzDate verified trailerAlg)
    verified.signature (zeroChunks n) trailers), onePiece_bytes _, ?_⟩
  have hne : ∀ chunk ∈ zeroChunks n, chunk ≠ [] := by
    intro chunk hchunk
    unfold zeroChunks at hchunk
    split at hchunk
    · cases hchunk
    · rw [List.mem_singleton.mp hchunk]
      simpa using ‹n ≠ 0›
  have hlen : (zeroChunks n).flatten.length = n := by rw [flatten_zeroChunks, List.length_replicate]
  rw [← flatten_zeroChunks] at hfit ⊢
  obtain ⟨pieces, hpieces, hreads⟩ := chunkedReader_complete crypto (newHash digest) formatAmzDate verified trailerAlg
    (zeroChunks n) trailers _ (fun _ => 1) hmac (by rw [hlen]; exact hn) hne hfit (onePiece_bytes _)
    (onePiece_progresses _) (fun _ => Nat.one_pos)
  rw [hlen] at hreads
  rw [← hpieces]
  exact readsToEOF_of_reads hreads

theorem readsToEOF_hashed {want data : Bytes} (length : Int) (h : hexEncode (crypto.sha256 data) = toLower want) :
    ReadsToEOF crypto (.hashed (newPayloadVerifier (onePiece data) want length)) data := by
  have hread : (newPayloadVerifier (onePiece data) want length).read crypto data.length = (data, some (.io .eof),
      ⟨{ onePiece data with fragments := [] }, data, toLower want, length - data.length, true⟩) := by
    simp [PayloadVerifier.read, newPayloadVerifier, onePiece, Source.read, h]
  exact .last (n := data.length) (by rw [BodyReader.read, hread])

omit [Unicode] in
/-- The verifier is done once it has found the hash, and at the end it is done. -/
theorem PayloadVerifier.read_done {v v' : PayloadVerifier} {n : Nat} {d : Bytes} {e : Option ReadError}
    (h : v.read crypto n = (d, e, v')) (he : e = none ∨ e = some (.io .eof)) (hv : v.done = false) :
    v'.want = v.want ∧ (v'.done = true → hexEncode (crypto.sha256 v'.written) = v.want) ∧
      (e = some (.io .eof) → v'.done = true) := by
  unfold PayloadVerifier.read at h
  rcases hread : v.r.read n with ⟨d₀, e₀, r⟩
  rw [hread] at h
  dsimp only at h
  split at h
  · split at h
    · cases h
      rcases he with he | he <;> cases he
    · rename_i hmatch
      cases h
      exact ⟨rfl, fun _ => not_ne_iff.mp hmatch, fun _ => rfl⟩
  · rename_i hlater
    cases h
    refine ⟨rfl, fun hdone => absurd (hdone.symm.trans hv) (by decide), fun heof => ?_⟩
    simp only [hv, Bool.not_false, Bool.true_and, Bool.or_eq_true, beq_iff_eq, not_or] at hlater
    cases e₀ with
    | none => cases heof
    | some e₀ =>
      cases heof
      exact absurd rfl hlater.2

theorem exists_hash_of_readsToEOF {reader : BodyReader} {data : Bytes} (h : ReadsToEOF crypto reader data)
    {v : PayloadVerifier} (hreader : reader = .hashed v) (hv : v.done = false) :
    ∃ found, hexEncode (crypto.sha256 found) = v.want := by
  induction h generalizing v with
  | @last _ _ n d hread =>
    subst hreader
    obtain ⟨v', rfl, hstep⟩ := BodyReader.read_hashed hread
    obtain ⟨-, hfound, heof⟩ := PayloadVerifier.read_done hstep (.inr rfl) hv
    exact ⟨_, hfound (heof rfl)⟩
  | @more _ _ n d data hread _ ih =>
    subst hreader
    obtain ⟨v', rfl, hstep⟩ := BodyReader.read_hashed hread
    obtain ⟨hwant, hfound, -⟩ := PayloadVerifier.read_done hstep (.inl rfl) hv
    cases hdone : v'.done with
    | true => exact ⟨_, hfound hdone⟩
    | false =>
      obtain ⟨found, hhash⟩ := ih rfl hdone
      exact ⟨found, hhash.trans hwant⟩

end Bodies

/-! ## The line a client sends -/

section Line

def checksumLine (a : Algorithm) (value : Bytes) : Bytes := headerPrefix ++ a.name ++ ch ':' :: value

theorem checksumName_facts (a : Algorithm) :
    (∀ b ∈ headerPrefix ++ a.name, isVisible b = true ∧ b ≠ ch ':') ∧ (headerPrefix ++ a.name).length ≤ 24 := by
  constructor
  · apply forall_mem_of_all
    cases a <;> decide +kernel
  · cases a <;> decide +kernel

theorem isVisible_base64Encode {b : Bytes} {x : UInt8} (h : x ∈ base64Encode b) : isVisible x = true := by
  have hdigit : ∀ d < 63, isVisible (base64Digit d) = true := by decide
  rcases mem_base64Encode h with rfl | ⟨d, rfl⟩
  · decide
  · by_cases hd : d < 63
    · exact hdigit d hd
    · have hlast : base64Digit d = ch '/' := by
        unfold base64Digit
        rw [if_neg (by omega), if_neg (by omega), if_neg (by omega), if_neg (by omega)]
      rw [hlast]
      decide

theorem isVisible_checksumLine (a : Algorithm) {value : Bytes} (hvalue : ∀ b ∈ value, isVisible b = true) :
    ∀ b ∈ checksumLine a value, isVisible b = true := by
  intro b hb
  cases List.mem_append.mp hb with
  | inl hb => exact ((checksumName_facts a).1 b hb).1
  | inr hb =>
    cases List.mem_cons.mp hb with
    | inl hcolon =>
      rw [hcolon]
      decide
    | inr hb => exact hvalue b hb

theorem notEnd_of_isVisible {line : Bytes} (h : ∀ b ∈ line, isVisible b = true) :
    ∀ b ∈ line, b ≠ ch '\r' ∧ b ≠ ch '\n' := by
  intro b hb
  have hends : isVisible (ch '\r') = false ∧ isVisible (ch '\n') = false := by decide
  have hvisible := h b hb
  constructor
  · intro hcr
    rw [hcr, hends.1] at hvisible
    cases hvisible
  · intro hlf
    rw [hlf, hends.2] at hvisible
    cases hvisible

variable [Unicode]

theorem checksumTrailer_checksumLine {p : ChunkParams} {a : Algorithm} {value : Bytes}
    (hname : equalFold a.name p.ckAlg = true) (hvalue : ∀ b ∈ value, isVisible b = true) :
    checksumTrailer p (checksumLine a value) = some value := by
  obtain ⟨hbytes, -⟩ := checksumName_facts a
  have hcut : cut (ch ':') (checksumLine a value) = (headerPrefix ++ a.name, value, true) :=
    cut_append fun hcolon => (hbytes _ hcolon).2 rfl
  have htrim : trimSpace (headerPrefix ++ a.name) = headerPrefix ++ a.name :=
    trimSpace_eq_self (trimmed_of_all_visible fun b hb => (hbytes b hb).1)
  have hfold : equalFold (headerPrefix ++ a.name) (str "x-amz-checksum-" ++ p.ckAlg) = true :=
    equalFold_append (forall_mem_of_all (by decide +kernel)) hname
  rw [checksumTrailer, hcut]
  simp only [htrim, Bool.true_and]
  rw [if_pos hfold, trimSpace_eq_self (trimmed_of_all_visible hvalue)]

variable (crypto : Crypto) (digest : Algorithm → Bytes → Bytes) (formatAmzDate : Time → Bytes) {verified : Verified}

theorem readerParams_checksum {alg : Bytes} {a : Algorithm}
    (hsuffix : hasSuffix verified.payloadHash (str "-TRAILER") = true) (hne : alg ≠ [])
    (hlookup : lookupAlgorithm alg = some a) (hcomputable : a.computable = true) :
    (readerParams crypto digest formatAmzDate verified alg).checksum = some (fun data => base64Encode (digest a data)) ∧
      (readerParams crypto digest formatAmzDate verified alg).ckAlg = alg := by
  simp [readerParams, chunkParams, hsuffix, hne, newHash, hlookup, hcomputable]

variable {crypto digest formatAmzDate}

theorem trailersFit_checksumLine (hdigest : ∀ a data, (digest a data).length ≤ 64) {alg : Bytes} {a : Algorithm}
    (hsuffix : hasSuffix verified.payloadHash (str "-TRAILER") = true) (hne : alg ≠ [])
    (hlookup : lookupAlgorithm alg = some a) (hcomputable : a.computable = true) (data : Bytes) :
    TrailersFit (readerParams crypto digest formatAmzDate verified alg) data
      [checksumLine a (base64Encode (digest a data))] := by
  obtain ⟨hchecksum, hckAlg⟩ :=
    readerParams_checksum crypto digest formatAmzDate hsuffix hne hlookup hcomputable
  have hvalue : ∀ b ∈ base64Encode (digest a data), isVisible b = true := fun b hb => isVisible_base64Encode hb
  have hname : equalFold a.name (readerParams crypto digest formatAmzDate verified alg).ckAlg = true := by
    rw [hckAlg]
    exact List.find?_some (p := fun a : Algorithm => equalFold a.name alg) hlookup
  have htrailer := checksumTrailer_checksumLine hname hvalue
  have hlen := (checksumName_facts a).2
  have hend := notEnd_of_isVisible (isVisible_checksumLine a hvalue)
  -- the line fits, shows the right value, and is there
  refine ⟨?_, ?_, ?_⟩
  · intro line hline
    rw [List.mem_singleton.mp hline]
    refine ⟨by simp [checksumLine], fun hmem => (hend _ hmem).2 rfl, trimLineEnd_eq_self hend, ?_⟩
    have hsize := hdigest a data
    rw [checksumLine, List.length_append, List.length_cons, length_base64Encode, maxChunkLineLen]
    omega
  · intro checksum hsome line hline value hshown
    rw [hchecksum] at hsome
    obtain rfl := Option.some.inj hsome
    rw [List.mem_singleton.mp hline, htrailer] at hshown
    exact (Option.some.inj hshown).symm
  · intro checksum hsome
    rw [hchecksum] at hsome
    obtain rfl := Option.some.inj hsome
    exact ⟨_, List.mem_cons_self, htrailer⟩

end Line

/-! ## What is verified -/

section Verified

variable [Unicode] (crypto : Crypto) (digest : Algorithm → Bytes → Bytes) (formatAmzDate : Time → Bytes)
  (verified : Verified) (body : Source) (data : Bytes) (payload : Payload)

/-- The name is that of a checksum, and the trailers of an aws-chunked body have it, with the
    checksum of the payload. -/
def TrailerVerified (name : Bytes) : Prop :=
  ∃ alg, name = headerPrefix ++ alg ∧
    (openBody crypto (newHash digest) formatAmzDate verified body payload).isChunked = true ∧
    (readerParams crypto digest formatAmzDate verified alg).checksum.isSome = true ∧
    ChunkStream (readerParams crypto digest formatAmzDate verified alg) data verified.signature body.bytes data

/-- At most one trailer is declared, on whatever line, and it is verified. -/
def TrailersVerified (h : Header) : Prop :=
  (declaredTrailers h).length ≤ 1 ∧
    ∀ name ∈ declaredTrailers h, TrailerVerified crypto digest formatAmzDate verified body data payload name

variable {crypto digest formatAmzDate verified body data payload} {c : OpCtx} {length : Int}

theorem declaredTrailers_of_first {alg : Bytes} (halg : trailerAlgorithm c.r.header = some alg)
    (hfurther : furtherTrailers c.r.header = []) :
    declaredTrailers c.r.header = if alg = [] then [] else [headerPrefix ++ alg] := by
  rw [declaredTrailers_eq, hfurther, List.append_nil, trailerAlgorithm_names halg]

theorem trailersVerified_of_first (hvr : verified.payloadHash = c.vr.payloadHash)
    (hopen : requestBody c = .ok (payload, length)) (hfurther : furtherTrailers c.r.header = [])
    (hstreaming : declaredTrailers c.r.header ≠ [] → isStreaming c.vr.payloadHash = true)
    (hread : ReadsToEOF crypto (openBody crypto (newHash digest) formatAmzDate verified body payload) data) :
    TrailersVerified crypto digest formatAmzDate verified body data payload c.r.header := by
  obtain ⟨alg, halg, hsuffix, hopened⟩ := requestBody_opened hopen
  have hdeclared := declaredTrailers_of_first halg hfurther
  unfold TrailersVerified
  by_cases hne : alg = []
  · simp [hdeclared, hne]
  · rw [if_neg hne] at hdeclared
    rw [hdeclared] at hstreaming ⊢
    have hchunked := hstreaming (List.cons_ne_nil _ _)
    refine ⟨Nat.le_refl 1, fun name hname => ⟨alg, List.mem_singleton.mp hname, ?_⟩⟩
    cases hopened with
    | chunked =>
      obtain ⟨hstream, -, hchecksum⟩ := (stands_chunked length hvr halg hsuffix).readsToEOF hread
      exact ⟨rfl, hchecksum hne, hstream⟩
    | hashed hplain => simp [hplain] at hchunked
    | raw hplain => simp [hplain] at hchunked

omit [Unicode] in
theorem isStreaming_of_hex {payloadHash : Bytes} (hhex : isHexSHA256 payloadHash = true) :
    isStreaming payloadHash = false := by
  have hsentinels : isHexSHA256 streamingSHA256 = false ∧ isHexSHA256 streamingSHA256T = false ∧
      isHexSHA256 streamingUnsignedT = false := by decide +kernel
  obtain ⟨hsigned, htrailer, hunsigned⟩ := hsentinels
  rw [← Bool.not_eq_true]
  intro hstreaming
  simp only [isStreaming, Bool.or_eq_true, beq_iff_eq] at hstreaming
  obtain (rfl | rfl) | rfl := hstreaming
  · simp [hhex] at hsigned
  · simp [hhex] at htrailer
  · simp [hhex] at hunsigned

theorem not_readsToEOF_of_no_hash (hopen : requestBody c = .ok (payload, length))
    (hhex : isHexSHA256 c.vr.payloadHash = true)
    (hnone : ∀ data, hexEncode (crypto.sha256 data) ≠ toLower c.vr.payloadHash) :
    ¬ReadsToEOF crypto (openBody crypto (newHash digest) formatAmzDate verified body payload) data := by
  intro hread
  obtain ⟨alg, -, -, hopened⟩ := requestBody_opened hopen
  cases hopened with
  | chunked hstreaming => simp [isStreaming_of_hex hhex] at hstreaming
  | hashed =>
    obtain ⟨found, hfound⟩ := exists_hash_of_readsToEOF hread rfl rfl
    exact hnone found hfound
  | raw _ _ hnot => simp [hhex] at hnot

omit [Unicode] in
theorem colon_not_mem_zeroChunks {n : Nat} : ∀ chunk ∈ zeroChunks n, ch ':' ∉ chunk := by
  intro chunk hchunk
  unfold zeroChunks at hchunk
  split at hchunk
  · cases hchunk
  · rw [List.mem_singleton.mp hchunk]
    intro hmem
    exact absurd (List.eq_of_mem_replicate hmem) (by decide)

theorem furtherTrailers_of_none {n : Nat} (hmac : ∀ key data, (crypto.hmac key data).length = 32) (hn : n < 2 ^ 63)
    (hall : ∀ body data,
      ReadsToEOF crypto (openBody crypto (newHash digest) formatAmzDate verified body (.chunked [] n)) data →
      TrailersVerified crypto digest formatAmzDate verified body data (.chunked [] n) c.r.header) :
    furtherTrailers c.r.header = [] := by
  have hnone : (readerParams crypto digest formatAmzDate verified []).checksum = none := by
    simp [readerParams, chunkParams]
  have hfit : TrailersFit (readerParams crypto digest formatAmzDate verified []) (List.replicate n 0) [] :=
    ⟨List.forall_mem_nil _, fun _ hsome => by simp [hnone] at hsome, fun _ hsome => by simp [hnone] at hsome⟩
  obtain ⟨body, hbody, hread⟩ := exists_chunked_body hmac hn hfit
  by_contra hfurther
  obtain ⟨name, hname⟩ := List.exists_mem_of_ne_nil _ hfurther
  have hmem : name ∈ declaredTrailers c.r.header := by
    rw [declaredTrailers_eq]
    exact List.mem_append_right _ hname
  -- a verified trailer has a colon, and the body has none
  obtain ⟨alg, -, -, hchecksum, hstream⟩ := (hall body _ hread).2 name hmem
  have hcolon := hstream.colon_mem hchecksum
  rw [hbody] at hcolon
  exact colon_not_mem_encodeStream hmac colon_not_mem_zeroChunks _ hcolon

theorem furtherTrailers_of_one {n : Nat} {alg : Bytes} {a : Algorithm}
    (hmac : ∀ key data, (crypto.hmac key data).length = 32) (hn : n < 2 ^ 63)
    (hdigest : ∀ a data, (digest a data).length ≤ 64) (halg : trailerAlgorithm c.r.header = some alg)
    (hsuffix : hasSuffix verified.payloadHash (str "-TRAILER") = true) (hne : alg ≠ [])
    (hlookup : lookupAlgorithm alg = some a) (hcomputable : a.computable = true)
    (hall : ∀ body data,
      ReadsToEOF crypto (openBody crypto (newHash digest) formatAmzDate verified body (.chunked alg n)) data →
      TrailersVerified crypto digest formatAmzDate verified body data (.chunked alg n) c.r.header) :
    furtherTrailers c.r.header = [] := by
  have hfit : TrailersFit (readerParams crypto digest formatAmzDate verified alg) _ _ :=
    trailersFit_checksumLine hdigest hsuffix hne hlookup hcomputable (List.replicate n 0)
  obtain ⟨body, -, hread⟩ := exists_chunked_body hmac hn hfit
  by_contra hfurther
  have hpos := List.length_pos_iff.mpr hfurther
  have hone := (hall body _ hread).1
  rw [declaredTrailers_eq, trailerAlgorithm_names halg, if_neg hne, List.length_append] at hone
  simp only [List.length_singleton] at hone
  omega

theorem furtherTrailers_of_verified (hmac : ∀ key data, (crypto.hmac key data).length = 32)
    (hdigest : ∀ a data, (digest a data).length ≤ 64) (hvr : verified.payloadHash = c.vr.payloadHash)
    (hopen : requestBody c = .ok (payload, length)) (hchunked : isStreaming c.vr.payloadHash = true)
    (hall : ∀ body data, ReadsToEOF crypto (openBody crypto (newHash digest) formatAmzDate verified body payload) data →
      TrailersVerified crypto digest formatAmzDate verified body data payload c.r.header) :
    furtherTrailers c.r.header = [] := by
  obtain ⟨alg, halg, hsuffix, hopened⟩ := requestBody_opened hopen
  cases hopened with
  | hashed hplain => simp [hplain] at hchunked
  | raw hplain => simp [hplain] at hchunked
  | chunked _ hnonneg hparse =>
    obtain ⟨n, rfl⟩ := Int.eq_ofNat_of_zero_le hnonneg
    have hn : n < 2 ^ 63 := by
      have hlt := parseInt_lt hparse
      omega
    by_cases hne : alg = []
    · subst hne
      exact furtherTrailers_of_none hmac hn hall
    · obtain ⟨a, hlookup, hcomputable⟩ : ∃ a, lookupAlgorithm alg = some a ∧ a.computable = true := by
        have hany := trailerAlgorithm_computable halg hne
        simpa [Option.any_eq_true] using hany
      exact furtherTrailers_of_one hmac hn hdigest halg (hvr ▸ hsuffix hne) hne hlookup hcomputable hall

/-- Every trailer a request declares is verified in every body exactly when it is declared on
    the first line, for an aws-chunked body; or when there is no body at all. -/
theorem requestBody_trailers_iff (hmac : ∀ key data, (crypto.hmac key data).length = 32)
    (hdigest : ∀ a data, (digest a data).length ≤ 64) (hvr : verified.payloadHash = c.vr.payloadHash)
    (hopen : requestBody c = .ok (payload, length)) :
    (∀ body data, ReadsToEOF crypto (openBody crypto (newHash digest) formatAmzDate verified body payload) data →
        TrailersVerified crypto digest formatAmzDate verified body data payload c.r.header) ↔
      (furtherTrailers c.r.header = [] ∧
          (declaredTrailers c.r.header ≠ [] → isStreaming c.vr.payloadHash = true)) ∨
        (isHexSHA256 c.vr.payloadHash = true ∧
          ∀ data, hexEncode (crypto.sha256 data) ≠ toLower c.vr.payloadHash) := by
  constructor
  · intro hall
    by_cases hchunked : isStreaming c.vr.payloadHash = true
    · exact .inl ⟨furtherTrailers_of_verified hmac hdigest hvr hopen hchunked hall, fun _ => hchunked⟩
    · -- no reader but that of an aws-chunked body verifies a trailer
      have hnone : ∀ body data, ReadsToEOF crypto
          (openBody crypto (newHash digest) formatAmzDate verified body payload) data →
          (openBody crypto (newHash digest) formatAmzDate verified body payload).isChunked = false →
          declaredTrailers c.r.header = [] := by
        intro body data hread hplain
        apply List.eq_nil_iff_forall_not_mem.mpr
        intro name hname
        obtain ⟨_, -, hreader, -⟩ := (hall body data hread).2 name hname
        rw [hplain] at hreader
        cases hreader
      -- what no line declares, no further line does
      have hfirst : declaredTrailers c.r.header = [] → furtherTrailers c.r.header = [] := by
        intro hdeclared
        rw [declaredTrailers_eq] at hdeclared
        exact (List.append_eq_nil_iff.mp hdeclared).2
      obtain ⟨alg, -, -, hopened⟩ := requestBody_opened hopen
      cases hopened with
      | chunked hstreaming => exact absurd hstreaming hchunked
      | raw _ _ _ =>
        have hdeclared := hnone ⟨[], .eof, false⟩ [] (.last (n := 0) rfl) rfl
        exact .inl ⟨hfirst hdeclared, fun hne => absurd hdeclared hne⟩
      | hashed _ _ hhex =>
        by_cases hhash : ∃ data, hexEncode (crypto.sha256 data) = toLower c.vr.payloadHash
        · obtain ⟨data, hdata⟩ := hhash
          have hdeclared := hnone (onePiece data) data (readsToEOF_hashed _ hdata) rfl
          exact .inl ⟨hfirst hdeclared, fun hne => absurd hdeclared hne⟩
        · exact .inr ⟨hhex, fun data hdata => hhash ⟨data, hdata⟩⟩
  · intro hcond body data hread
    rcases hcond with ⟨hfurther, hstreaming⟩ | ⟨hhex, hnone⟩
    · exact trailersVerified_of_first hvr hopen hfurther hstreaming hread
    · exact absurd hread (not_readsToEOF_of_no_hash hopen hhex hnone)

end Verified

/-! ## Two lines -/

def verifyingPolicy : ChecksumPolicy where
  support a := if a.computable then .verified else .refused
  verified_computable := by
    intro a h
    by_contra hnot
    simp [hnot] at h

/-- An upload of nothing with these lines of `x-amz-trailer`. -/
def trailerCtx (lines : List Bytes) (payloadHash : Bytes) : OpCtx :=
  { sharedDeleteCtx with
    g := { sharedDeleteCtx.g with checksums := verifyingPolicy }
    r := { sharedDeleteRequest with header := lines.map (str "X-Amz-Trailer", ·), contentLength := 0 }
    hdr := ⟨[(str "X-Amz-Decoded-Content-Length", str "0")], [str "x-amz-decoded-content-length"]⟩
    vr := { sharedDeleteCtx.vr with payloadHash } }

def trailerVerifiedBy (payloadHash : Bytes) : Verified := ⟨[], [], [], 0, [], [], payloadHash⟩

def emptyTrailerBody : Source := onePiece (str "0\r\nx-amz-checksum-crc32:\r\n\r\n")

theorem emptyTrailerBody_read :
    let _ := asciiTables
    ReadsToEOF wideCrypto (openBody wideCrypto (newHash fun _ _ => []) (fun _ => [])
      (trailerVerifiedBy streamingUnsignedT) emptyTrailerBody (.chunked (str "crc32") 0)) [] := by
  intro _
  let p := readerParams wideCrypto (fun _ _ => []) (fun _ => []) (trailerVerifiedBy streamingUnsignedT) (str "crc32")
  have hreads : (newChunkedReader p (trailerVerifiedBy streamingUnsignedT) emptyTrailerBody 0).reads p [1] =
      List.map (·, none) [] ++ [([], some (.io .eof))] := by
    decide +kernel
  exact readsToEOF_of_reads hreads

/-- A second line is not looked at, and neither is the first with a sentinel that is not one
    of the three. -/
theorem secondLine_unverified :
    let _ := asciiTables
    let c := trailerCtx [str "x-amz-checksum-crc32", str "x-amz-checksum-sha256"] streamingUnsignedT
    requestBody c = .ok (.chunked (str "crc32") 0, 0) ∧
      ReadsToEOF wideCrypto (openBody wideCrypto (newHash fun _ _ => []) (fun _ => [])
        (trailerVerifiedBy streamingUnsignedT) emptyTrailerBody (.chunked (str "crc32") 0)) [] ∧
      ¬TrailersVerified wideCrypto (fun _ _ => []) (fun _ => []) (trailerVerifiedBy streamingUnsignedT)
        emptyTrailerBody [] (.chunked (str "crc32") 0) c.r.header ∧
      requestBody (trailerCtx [str "x-amz-checksum-crc32"] (ecdsaPayload ++ str "-TRAILER")) = .ok (.raw 0, 0) := by
  intro _
  refine ⟨by decide +kernel, emptyTrailerBody_read, ?_, by decide +kernel⟩
  rintro ⟨hone, -⟩
  revert hone
  decide +kernel

/-- One line of an aws-chunked request. -/
theorem firstLine_verified :
    let _ := asciiTables
    let c := trailerCtx [str "x-amz-checksum-crc32"] streamingUnsignedT
    furtherTrailers c.r.header = [] ∧ isStreaming c.vr.payloadHash = true ∧
      requestBody c = .ok (.chunked (str "crc32") 0, 0) ∧
      ReadsToEOF wideCrypto (openBody wideCrypto (newHash fun _ _ => []) (fun _ => [])
        (trailerVerifiedBy streamingUnsignedT) emptyTrailerBody (.chunked (str "crc32") 0)) [] ∧
      TrailersVerified wideCrypto (fun _ _ => []) (fun _ => []) (trailerVerifiedBy streamingUnsignedT)
        emptyTrailerBody [] (.chunked (str "crc32") 0) c.r.header := by
  intro _ c
  have hopen : requestBody c = .ok (.chunked (str "crc32") 0, 0) := by decide +kernel
  have hfurther : furtherTrailers c.r.header = [] := by decide +kernel
  have hstreaming : isStreaming c.vr.payloadHash = true := by decide +kernel
  have hall : ∀ body data, ReadsToEOF wideCrypto (openBody wideCrypto (newHash fun _ _ => []) (fun _ => [])
        (trailerVerifiedBy streamingUnsignedT) body (.chunked (str "crc32") 0)) data →
      TrailersVerified wideCrypto (fun _ _ => []) (fun _ => []) (trailerVerifiedBy streamingUnsignedT) body data
        (.chunked (str "crc32") 0) c.r.header := by
    refine (requestBody_trailers_iff (fun _ _ => rfl) (fun _ _ => ?_) rfl hopen).mpr ?_
    · exact Nat.zero_le 64
    · exact .inl ⟨hfurther, fun _ => hstreaming⟩
  exact ⟨hfurther, hstreaming, hopen, emptyTrailerBody_read, hall _ _ emptyTrailerBody_read⟩

end S3Gateway.S3gw
