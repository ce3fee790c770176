import S3Gateway.S3gw.PayloadHash
import S3Gateway.Sigv4.ChunkedIntegrity

/-! # Bodies read to their end

Both readers that verify a payload keep an account of what they have delivered, and neither
reports the end, or has delivered the declared length, before it has verified everything. -/

namespace S3Gateway.S3gw

open Go S3err Sigv4

/-- What `net/http` promises about the body of a request: no more bytes than Content-Length
    says, and an error if there are fewer. -/
structure Served (contentLength : Int) (body : Source) : Prop where
  atMost : 0 ≤ contentLength → (body.bytes.length : Int) ≤ contentLength
  whole : 0 ≤ contentLength → body.final = .eof → (body.bytes.length : Int) = contentLength

/-! ## The hash of the payload -/

section Verifier

variable {crypto : Crypto} {body : Source} {declared : Int} {delivered : Bytes}

/-- The verifier after it has delivered some of the body. -/
structure PayloadVerifier.At (crypto : Crypto) (body : Source) (declared : Int) (delivered : Bytes)
    (v : PayloadVerifier) : Prop where
  sound : v.Sound crypto
  written : v.written = delivered
  rest : body.bytes = delivered ++ v.r.bytes
  final : v.r.final = body.final
  remaining : v.remaining = declared - delivered.length
  pending : v.done = false → delivered = [] ∨ 0 < v.remaining

/-- A call that does not find a mismatch hands on what its source hands out, and compares
    when the declared length is reached. -/
theorem PayloadVerifier.read_moves {v v' : PayloadVerifier} {n : Nat} {d : Bytes} {e : Option ReadError}
    (h : v.read crypto n = (d, e, v')) (he : e ≠ some (.s3 contentSHA256Mismatch)) :
    ∃ e₀, v.r.read n = (d, e₀, v'.r) ∧ e = e₀.map .io ∧ v'.remaining = v.remaining - d.length ∧
      (v'.done = false → 0 < v'.remaining) := by
  cases PayloadVerifier.reads h with
  | refused => exact absurd rfl he
  | @compared _ e₀ r hread => exact ⟨e₀, hread, rfl, rfl, fun hdone => by cases hdone⟩
  | @passed _ e₀ r hread hlater =>
    refine ⟨e₀, hread, rfl, rfl, fun hdone => ?_⟩
    have hopen : v.done = false := hdone
    exact (hlater.resolve_left (by simp [hopen])).1

theorem PayloadVerifier.At.read {v v' : PayloadVerifier} {n : Nat} {d : Bytes} {e : Option ReadError}
    (hv : v.At crypto body declared delivered) (h : v.read crypto n = (d, e, v'))
    (he : e ≠ some (.s3 contentSHA256Mismatch)) : v'.At crypto body declared (delivered ++ d) ∧ v'.want = v.want := by
  obtain ⟨hsound, hwritten, hwant, -⟩ := PayloadVerifier.read_spec hv.sound h he
  obtain ⟨e₀, hread, -, hremaining, hpending⟩ := PayloadVerifier.read_moves h he
  refine ⟨⟨hsound, by rw [hwritten, hv.written], ?_, ?_, ?_, fun hdone => .inr (hpending hdone)⟩, hwant⟩
  · rw [hv.rest, Source.read_bytes hread, List.append_assoc]
  · rw [(Source.read_final hread).1, hv.final]
  · rw [hremaining, hv.remaining, List.length_append]
    omega

def Hashes (crypto : Crypto) (body : Source) (want : Bytes) (declared : Int) (data : Bytes) : Prop :=
  data = body.bytes ∧ (data.length : Int) = declared ∧ hexEncode (crypto.sha256 data) = want

theorem PayloadVerifier.At.hashes_of_length {v : PayloadVerifier} (hv : v.At crypto body declared delivered)
    (hpos : 0 < declared) (hlen : (delivered.length : Int) = declared) :
    Hashes crypto body v.want declared delivered := by
  have hdone : v.done = true := by
    rw [← Bool.not_eq_false]
    intro hopen
    have hremaining := hv.remaining
    rcases hv.pending hopen with hnone | hmore
    · rw [hnone, List.length_nil] at hlen
      omega
    · omega
  obtain ⟨hempty, hmatch⟩ := hv.sound.compared hdone
  rw [hv.written] at hmatch
  exact ⟨by rw [hv.rest, hempty, List.append_nil], hlen, hmatch⟩

theorem PayloadVerifier.At.hashes_of_eof {v v' : PayloadVerifier} {n : Nat} {d : Bytes}
    (hv : v.At crypto body declared delivered)
    (h : v.read crypto n = (d, some (.io .eof), v'))
    (hwhole : body.final = .eof → (body.bytes.length : Int) = declared) :
    Hashes crypto body v.want declared (delivered ++ d) := by
  obtain ⟨hsound, hwritten, hwant, heof⟩ := PayloadVerifier.read_spec hv.sound h (by simp)
  obtain ⟨e₀, hread, he, -⟩ := PayloadVerifier.read_moves h (by simp)
  obtain ⟨hat, -⟩ := hv.read h (by simp)
  obtain rfl : e₀ = some .eof := by
    cases e₀ with
    | none => cases he
    | some e₀ =>
      cases he
      rfl
  have hfinal : body.final = .eof := by
    rw [← hv.final]
    have hend := (Source.read_final hread).2.resolve_left nofun
    exact (Option.some.inj hend).symm
  have hall : delivered ++ d = body.bytes := by
    have hnone : v'.r.bytes = [] := by rw [Source.bytes, Source.read_error hread]; rfl
    rw [hat.rest, hnone, List.append_nil]
  refine ⟨hall, by rw [hall, hwhole hfinal], ?_⟩
  rw [← hat.written, heof rfl, hwant]

theorem newPayloadVerifier_at [Unicode] (crypto : Crypto) (want : Bytes)
    (h : (body.bytes.length : Int) ≤ declared) :
    (newPayloadVerifier body want declared).At crypto body declared [] where
  sound := newPayloadVerifier_sound crypto want h
  written := rfl
  rest := rfl
  final := rfl
  remaining := by simp [newPayloadVerifier]
  pending _ := .inl rfl

end Verifier

/-! ## Either reader -/

section Reading

variable [Unicode] (crypto : Crypto) (digest : Algorithm → Bytes → Bytes)
  (formatAmzDate : Time → Bytes) (verified : Verified) (body : Source)

/-- The parameters of the reader for a declared trailer. -/
def readerParams (trailerAlg : Bytes) : ChunkParams :=
  chunkParams crypto (newHash digest) formatAmzDate verified trailerAlg

/-- The data is the complete payload, and verified: by its hash, or by the chain of
    signatures down to the terminal chunk and the checksum of the trailer. -/
def FullyVerified (data : Bytes) : Payload → Prop
  | .chunked trailerAlg length =>
    ChunkStream (readerParams crypto digest formatAmzDate verified trailerAlg) data verified.signature
      body.bytes data ∧ (data.length : Int) = length ∧
      (trailerAlg ≠ [] → (readerParams crypto digest formatAmzDate verified trailerAlg).checksum.isSome = true)
  | .hashed want length => Hashes crypto body (toLower want) length data
  | .raw _ | .postFile _ => False

/-- A reader that verifies, after it has delivered some of the payload. -/
inductive Stands (delivered : Bytes) : Payload → BodyReader → Prop
  | chunked {trailerAlg : Bytes} {length : Int} {cr : ChunkedReader}
    (hacc : Accounts (readerParams crypto digest formatAmzDate verified trailerAlg) delivered length cr)
    (h : Standing (readerParams crypto digest formatAmzDate verified trailerAlg) verified.signature body.bytes
      delivered cr)
    (hchecksum : trailerAlg ≠ [] →
      (readerParams crypto digest formatAmzDate verified trailerAlg).checksum.isSome = true) :
    Stands delivered (.chunked trailerAlg length)
      (.chunked (readerParams crypto digest formatAmzDate verified trailerAlg) cr)
  | hashed {want : Bytes} {length : Int} {v : PayloadVerifier} (h : v.At crypto body length delivered)
    (hwant : v.want = toLower want)
    (hwhole : body.final = .eof → (body.bytes.length : Int) = length) :
    Stands delivered (.hashed want length) (.hashed v)

variable {crypto digest formatAmzDate verified body} {delivered d : Bytes} {payload : Payload}
  {reader reader' : BodyReader} {n : Nat}

theorem Stands.read_ok (h : Stands crypto digest formatAmzDate verified body delivered payload reader)
    (hread : reader.read crypto n = (d, none, reader')) :
    Stands crypto digest formatAmzDate verified body (delivered ++ d) payload reader' ∧ d.length ≤ n := by
  cases h with
  | @chunked trailerAlg length cr hacc h hchecksum =>
    obtain ⟨cr', rfl, hstep⟩ := BodyReader.read_chunked hread
    obtain ⟨hacc', h'⟩ := Sigv4.read_ok hstep hacc h
    exact ⟨.chunked hacc' h' hchecksum, read_length hstep⟩
  | @hashed want length v h hwant hwhole =>
    obtain ⟨v', rfl, hstep⟩ := BodyReader.read_hashed hread
    obtain ⟨h', hsame⟩ := h.read hstep (by simp)
    obtain ⟨e₀, hsource, -⟩ := PayloadVerifier.read_moves hstep (by simp)
    exact ⟨.hashed h' (hsame.trans hwant) hwhole, Source.read_length hsource⟩

theorem Stands.read_eof (h : Stands crypto digest formatAmzDate verified body delivered payload reader)
    (hread : reader.read crypto n = (d, some (.io .eof), reader')) :
    FullyVerified crypto digest formatAmzDate verified body (delivered ++ d) payload ∧ d.length ≤ n := by
  cases h with
  | @chunked trailerAlg length cr hacc h hchecksum =>
    obtain ⟨cr', rfl, hstep⟩ := BodyReader.read_chunked hread
    obtain ⟨rfl, cr₁, hacc₁, hcomplete⟩ := Sigv4.read_eof hstep hacc h
    have hlength := hacc₁.length
    rw [hcomplete.remaining, hcomplete.undecoded] at hlength
    rw [List.append_nil]
    exact ⟨⟨hcomplete.stream, by omega, hchecksum⟩, Nat.zero_le n⟩
  | @hashed want length v h hwant hwhole =>
    obtain ⟨v', rfl, hstep⟩ := BodyReader.read_hashed hread
    obtain ⟨e₀, hsource, -⟩ := PayloadVerifier.read_moves hstep (by simp)
    have hhashes := h.hashes_of_eof hstep hwhole
    rw [hwant] at hhashes
    exact ⟨hhashes, Source.read_length hsource⟩

def Payload.declared : Payload → Int
  | .chunked _ length | .hashed _ length | .raw length | .postFile length => length

theorem Stands.of_length (h : Stands crypto digest formatAmzDate verified body delivered payload reader)
    (hpos : 0 < payload.declared) (hlen : (delivered.length : Int) = payload.declared) :
    FullyVerified crypto digest formatAmzDate verified body delivered payload := by
  cases h with
  | chunked hacc h hchecksum => exact ⟨(complete_of_length hacc h hpos hlen).stream, hlen, hchecksum⟩
  | hashed h hwant _ =>
    have hhashes := h.hashes_of_length hpos hlen
    rw [hwant] at hhashes
    exact hhashes

theorem Stands.length_le (h : Stands crypto digest formatAmzDate verified body delivered payload reader)
    (hne : delivered ≠ []) : (delivered.length : Int) ≤ payload.declared := by
  cases h with
  | @chunked _ length _ hacc h =>
    have hlength := hacc.length
    show (delivered.length : Int) ≤ length
    cases h with
    | header h hopen =>
      have hrem := h.remaining
      split at hopen
      · omega
      · exact absurd hopen hne
    | within h hopen =>
      have hund := h.undecoded
      omega
    | complete h =>
      have hrem := h.remaining
      have hund := h.undecoded
      omega
  | @hashed _ length _ h _ _ =>
    have hremaining := h.remaining
    have hdeclared := h.sound.declared
    show (delivered.length : Int) ≤ length
    omega

theorem FullyVerified.length {data : Bytes}
    (h : FullyVerified crypto digest formatAmzDate verified body data payload) :
    (data.length : Int) = payload.declared := by
  cases payload with
  | chunked _ length => exact h.2.1
  | hashed _ length => exact h.2.1
  | raw | postFile => cases h

theorem Stands.readsToEOF {data : Bytes}
    (h : Stands crypto digest formatAmzDate verified body delivered payload reader)
    (hread : ReadsToEOF crypto reader data) :
    FullyVerified crypto digest formatAmzDate verified body (delivered ++ data) payload := by
  induction hread generalizing delivered with
  | last hread => exact (h.read_eof hread).1
  | more hread _ ih =>
    rw [← List.append_assoc]
    exact ih (h.read_ok hread).1

theorem requestBody_declared {c : OpCtx} {length : Int} (hopen : requestBody c = .ok (payload, length)) :
    payload.declared = length := by
  obtain ⟨trailerAlg, -, -, hopened⟩ := requestBody_opened hopen
  cases hopened <;> rfl

theorem stands_chunked {c : OpCtx} {trailerAlg : Bytes} (length : Int)
    (hvr : verified.payloadHash = c.vr.payloadHash) (halg : trailerAlgorithm c.r.header = some trailerAlg)
    (hsuffix : trailerAlg ≠ [] → hasSuffix c.vr.payloadHash (str "-TRAILER") = true) :
    Stands crypto digest formatAmzDate verified body [] (.chunked trailerAlg length)
      (openBody crypto (newHash digest) formatAmzDate verified body (.chunked trailerAlg length)) := by
  obtain ⟨hacc, hstanding⟩ := newChunkedReader_standing
    (readerParams crypto digest formatAmzDate verified trailerAlg) verified body length
  refine .chunked hacc hstanding fun hne => ?_
  have hcomputable := trailerAlgorithm_computable halg hne
  rw [← newHash_isSome digest] at hcomputable
  simp [readerParams, chunkParams, hvr, hsuffix hne, hne, hcomputable]

theorem stands_openBody {c : OpCtx} {length : Int} (hvr : verified.payloadHash = c.vr.payloadHash)
    (hserved : Served c.r.contentLength body) (hopen : requestBody c = .ok (payload, length))
    (hhash : isHexSHA256 c.vr.payloadHash = true ∨ isStreaming c.vr.payloadHash = true) :
    Stands crypto digest formatAmzDate verified body [] payload
      (openBody crypto (newHash digest) formatAmzDate verified body payload) := by
  obtain ⟨trailerAlg, halg, hsuffix, hopened⟩ := requestBody_opened hopen
  cases hopened with
  | chunked => exact stands_chunked length hvr halg hsuffix
  | hashed _ hnonneg _ =>
    exact .hashed (newPayloadVerifier_at crypto _ (hserved.atMost hnonneg)) rfl (hserved.whole hnonneg)
  | raw hplain _ hhex => simp [hplain, hhex] at hhash

end Reading

end S3Gateway.S3gw
