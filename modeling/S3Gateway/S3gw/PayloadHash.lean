import S3Gateway.S3gw.DeleteObjects
import S3Gateway.Sigv4.Chunked

/-! # Bodies and the payload hash

What reading the body that `requestBody` returns says about its bytes.  The signature covers
the payload hash the client declared, and the body only as far as its reader compares the
two. -/

namespace S3Gateway.S3gw

open Go S3err Sigv4

/-! ## The readers -/

/-- `payloadVerifier`; the hash is kept as the bytes written to it. -/
structure PayloadVerifier where
  r : Source
  written : Bytes
  want : Bytes
  remaining : Int
  done : Bool

def newPayloadVerifier [Unicode] (r : Source) (want : Bytes) (length : Int) : PayloadVerifier where
  r := r
  written := []
  want := toLower want
  remaining := length
  done := false

/-- `v.Read(p)` with `n = len(p)`. -/
def PayloadVerifier.read (crypto : Crypto) (v : PayloadVerifier) (n : Nat) :
    Bytes × Option ReadError × PayloadVerifier :=
  let (d, e, r) := v.r.read n
  let written := v.written ++ d
  let remaining := v.remaining - d.length
  if !v.done && (decide (remaining ≤ 0) || e == some .eof) then
    if hexEncode (crypto.sha256 written) ≠ v.want then
      ([], some (.s3 contentSHA256Mismatch), { v with r, written, remaining, done := true })
    else (d, e.map .io, { v with r, written, remaining, done := true })
  else (d, e.map .io, { v with r, written, remaining })

/-- The reader `requestBody` returns. -/
inductive BodyReader where
  | chunked (p : ChunkParams) (cr : ChunkedReader)
  | hashed (v : PayloadVerifier)
  | raw (body : Source)

def BodyReader.isChunked : BodyReader → Bool
  | .chunked .. => true
  | _ => false

/-- `Read(p)` with `n = len(p)`, whichever reader it is. -/
def BodyReader.read [Unicode] (crypto : Crypto) (n : Nat) :
    BodyReader → Bytes × Option ReadError × BodyReader
  | .chunked p cr => let (d, e, cr) := cr.read p n; (d, e, .chunked p cr)
  | .hashed v => let (d, e, v) := v.read crypto n; (d, e, .hashed v)
  | .raw body => let (d, e, body) := body.read n; (d, e.map .io, .raw body)

theorem BodyReader.read_chunked [Unicode] {crypto : Crypto} {p : ChunkParams} {cr : ChunkedReader} {n : Nat} {d : Bytes}
    {e : Option ReadError} {reader : BodyReader} (h : (BodyReader.chunked p cr).read crypto n = (d, e, reader)) :
    ∃ cr', reader = .chunked p cr' ∧ cr.read p n = (d, e, cr') := by
  rcases hstep : cr.read p n with ⟨d', e', cr'⟩
  rw [BodyReader.read, hstep] at h
  cases h
  exact ⟨cr', rfl, rfl⟩

theorem BodyReader.read_hashed [Unicode] {crypto : Crypto} {v : PayloadVerifier} {n : Nat} {d : Bytes}
    {e : Option ReadError} {reader : BodyReader} (h : (BodyReader.hashed v).read crypto n = (d, e, reader)) :
    ∃ v', reader = .hashed v' ∧ v.read crypto n = (d, e, v') := by
  rcases hstep : v.read crypto n with ⟨d', e', v'⟩
  rw [BodyReader.read, hstep] at h
  cases h
  exact ⟨v', rfl, rfl⟩

/-- The reader behind a payload, over the bytes of the request's body. -/
def openBody [Unicode] (crypto : Crypto) (newHash : Bytes → Option (Bytes → Bytes))
    (formatAmzDate : Time → Bytes) (verified : Verified) (body : Source) : Payload → BodyReader
  | .chunked trailerAlg length =>
    let p := chunkParams crypto newHash formatAmzDate verified trailerAlg
    .chunked p (newChunkedReader p verified body length)
  | .hashed want length => .hashed (newPayloadVerifier body want length)
  -- a form's file is read by its own reader, which `requestBody` does not return
  | .raw _ | .postFile _ => .raw body

/-- Reading with buffers of any sizes hands out the data and then ends, without an error. -/
inductive ReadsToEOF [Unicode] (crypto : Crypto) : BodyReader → Bytes → Prop
  | last {reader reader' : BodyReader} {n : Nat} {d : Bytes} :
      reader.read crypto n = (d, some (.io .eof), reader') → ReadsToEOF crypto reader d
  | more {reader reader' : BodyReader} {n : Nat} {d data : Bytes} :
      reader.read crypto n = (d, none, reader') → ReadsToEOF crypto reader' data →
      ReadsToEOF crypto reader (d ++ data)

/-! ## The signed hash -/

section Verifier

variable {crypto : Crypto}

/-- What a call can do with the bytes `d` and the error `e` that its source hands out. -/
inductive PayloadVerifier.Reads (crypto : Crypto) (v : PayloadVerifier) (n : Nat) :
    Bytes → Option ReadError → PayloadVerifier → Prop
  | refused {d : Bytes} {e : Option StreamError} {r : Source} (hread : v.r.read n = (d, e, r)) (hopen : v.done = false)
    (hnow : v.remaining - d.length ≤ 0 ∨ e = some .eof) (hdiffers : hexEncode (crypto.sha256 (v.written ++ d)) ≠ v.want) :
    v.Reads crypto n [] (some (.s3 contentSHA256Mismatch))
      { v with r, written := v.written ++ d, remaining := v.remaining - d.length, done := true }
  | compared {d : Bytes} {e : Option StreamError} {r : Source} (hread : v.r.read n = (d, e, r)) (hopen : v.done = false)
    (hnow : v.remaining - d.length ≤ 0 ∨ e = some .eof) (hmatch : hexEncode (crypto.sha256 (v.written ++ d)) = v.want) :
    v.Reads crypto n d (e.map .io)
      { v with r, written := v.written ++ d, remaining := v.remaining - d.length, done := true }
  | passed {d : Bytes} {e : Option StreamError} {r : Source} (hread : v.r.read n = (d, e, r))
    (hlater : v.done = true ∨ 0 < v.remaining - d.length ∧ e ≠ some .eof) :
    v.Reads crypto n d (e.map .io) { v with r, written := v.written ++ d, remaining := v.remaining - d.length }

theorem PayloadVerifier.reads {v v' : PayloadVerifier} {n : Nat} {d : Bytes} {e : Option ReadError}
    (h : v.read crypto n = (d, e, v')) : v.Reads crypto n d e v' := by
  unfold PayloadVerifier.read at h
  rcases hread : v.r.read n with ⟨d₀, e₀, r⟩
  rw [hread] at h
  dsimp only at h
  split at h
  · rename_i hnow
    simp only [Bool.and_eq_true, Bool.not_eq_true', Bool.or_eq_true, decide_eq_true_eq, beq_iff_eq] at hnow
    split at h
    · rename_i hdiffers
      cases h
      exact .refused hread hnow.1 hnow.2 hdiffers
    · rename_i hmatch
      cases h
      exact .compared hread hnow.1 hnow.2 (not_ne_iff.mp hmatch)
  · rename_i hlater
    cases h
    refine .passed hread ?_
    cases hdone : v.done with
    | true => exact .inl rfl
    | false =>
      simp only [hdone, Bool.not_false, Bool.true_and, Bool.or_eq_true, decide_eq_true_eq, beq_iff_eq, not_or] at hlater
      exact .inr ⟨by omega, hlater.2⟩

/-- The verifier has compared the hash of everything, or still has to. -/
structure PayloadVerifier.Sound (crypto : Crypto) (v : PayloadVerifier) : Prop where
  compared : v.done = true → v.r.bytes = [] ∧ hexEncode (crypto.sha256 v.written) = v.want
  declared : (v.r.bytes.length : Int) ≤ v.remaining

theorem PayloadVerifier.Sound.declared_read {v : PayloadVerifier} (hv : v.Sound crypto) {n : Nat} {d : Bytes}
    {e : Option StreamError} {r : Source} (hread : v.r.read n = (d, e, r)) :
    (r.bytes.length : Int) ≤ v.remaining - d.length := by
  have hlen := congrArg List.length (Source.read_bytes hread)
  have := hv.declared
  rw [List.length_append] at hlen
  omega

theorem PayloadVerifier.Sound.bytes_eq_nil {v : PayloadVerifier} (hv : v.Sound crypto) {n : Nat} {d : Bytes}
    {e : Option StreamError} {r : Source} (hread : v.r.read n = (d, e, r))
    (hnow : v.remaining - d.length ≤ 0 ∨ e = some .eof) : r.bytes = [] := by
  rcases hnow with hall | rfl
  · have := hv.declared_read hread
    exact List.eq_nil_of_length_eq_zero (by omega)
  · simp [Source.bytes, Source.read_error hread]

/-- What a call that does not find a mismatch leaves behind, and that it has compared at the end. -/
theorem PayloadVerifier.read_spec {v v' : PayloadVerifier} {n : Nat} {d : Bytes}
    {e : Option ReadError} (hv : v.Sound crypto) (h : v.read crypto n = (d, e, v'))
    (he : e ≠ some (.s3 contentSHA256Mismatch)) :
    v'.Sound crypto ∧ v'.written = v.written ++ d ∧ v'.want = v.want ∧
      (e = some (.io .eof) → hexEncode (crypto.sha256 v'.written) = v'.want) := by
  cases PayloadVerifier.reads h with
  | refused => exact absurd rfl he
  | compared hread hopen hnow hmatch =>
    exact ⟨⟨fun _ => ⟨hv.bytes_eq_nil hread hnow, hmatch⟩, hv.declared_read hread⟩, rfl, rfl, fun _ => hmatch⟩
  | @passed _ e₀ r hread hlater =>
    cases hdone : v.done with
    | true =>
      -- nothing is left to hand out
      obtain ⟨hempty, hmatch⟩ := hv.compared hdone
      have hbytes := Source.read_bytes hread
      rw [hempty] at hbytes
      obtain ⟨rfl, hr⟩ := List.append_eq_nil_iff.mp hbytes.symm
      have hsame : hexEncode (crypto.sha256 (v.written ++ [])) = v.want := by
        rw [List.append_nil]
        exact hmatch
      exact ⟨⟨fun _ => ⟨hr, hsame⟩, hv.declared_read hread⟩, rfl, rfl, fun _ => hsame⟩
    | false =>
      refine ⟨⟨fun h => ?_, hv.declared_read hread⟩, rfl, rfl, fun heof => ?_⟩
      · cases h
      · obtain ⟨-, hne⟩ := hlater.resolve_left (by simp [hdone])
        exact absurd (by simpa using heof) hne

theorem PayloadVerifier.readsToEOF [Unicode] {v : PayloadVerifier} {reader : BodyReader}
    {data : Bytes} (h : ReadsToEOF crypto reader data) (hreader : reader = .hashed v)
    (hv : v.Sound crypto) : hexEncode (crypto.sha256 (v.written ++ data)) = v.want := by
  induction h generalizing v with
  | @last _ _ n d hread =>
    subst hreader
    obtain ⟨v', rfl, hstep⟩ := BodyReader.read_hashed hread
    obtain ⟨-, hwritten, hwant, heof⟩ := PayloadVerifier.read_spec hv hstep (by simp)
    rw [← hwritten, heof rfl, hwant]
  | @more _ _ n d data hread _ ih =>
    subst hreader
    obtain ⟨v', rfl, hstep⟩ := BodyReader.read_hashed hread
    obtain ⟨hv', hwritten, hwant, -⟩ := PayloadVerifier.read_spec hv hstep (by simp)
    have hrest := ih rfl hv'
    rw [hwritten, List.append_assoc, hwant] at hrest
    exact hrest

theorem newPayloadVerifier_sound [Unicode] (crypto : Crypto) (want : Bytes) {body : Source}
    {length : Int} (h : (body.bytes.length : Int) ≤ length) :
    (newPayloadVerifier body want length).Sound crypto where
  compared := by
    intro h
    cases h
  declared := h

end Verifier

/-! ## What `requestBody` lets through -/

/-- The payloads `requestBody` returns, with their lengths. -/
inductive Opened [Unicode] (c : OpCtx) (trailerAlg : Bytes) : Payload → Int → Prop
  | chunked {length : Int} (hstreaming : isStreaming c.vr.payloadHash = true) (hnonneg : 0 ≤ length)
    (hparse : parseInt 10 64 (c.signed (str "x-amz-decoded-content-length")) = some length) :
    Opened c trailerAlg (.chunked trailerAlg length) length
  | hashed (hplain : isStreaming c.vr.payloadHash = false) (hnonneg : 0 ≤ c.r.contentLength)
    (hhex : isHexSHA256 c.vr.payloadHash = true) :
    Opened c trailerAlg (.hashed c.vr.payloadHash c.r.contentLength) c.r.contentLength
  | raw (hplain : isStreaming c.vr.payloadHash = false) (hnonneg : 0 ≤ c.r.contentLength)
    (hhex : isHexSHA256 c.vr.payloadHash = false) :
    Opened c trailerAlg (.raw c.r.contentLength) c.r.contentLength

theorem requestBody_opened [Unicode] {c : OpCtx} {payload : Payload} {length : Int}
    (h : requestBody c = .ok (payload, length)) :
    ∃ trailerAlg, trailerAlgorithm c.r.header = some trailerAlg ∧
      (trailerAlg ≠ [] → hasSuffix c.vr.payloadHash (str "-TRAILER") = true) ∧
      Opened c trailerAlg payload length := by
  obtain ⟨trailerAlg, halg, h⟩ := Fallible.bind_eq_ok.mp h
  obtain ⟨_, -, h⟩ := Fallible.bind_eq_ok.mp h
  -- what the first `X-Amz-Trailer` line declares
  have hdeclared : trailerAlgorithm c.r.header = some trailerAlg := by
    cases hfound : trailerAlgorithm c.r.header with
    | none => simp [hfound] at halg
    | some alg => simpa [hfound] using halg
  split at h
  · cases h
  · rename_i hsuffix
    refine ⟨trailerAlg, hdeclared, fun hne => by simpa [hne] using hsuffix, ?_⟩
    split at h
    · rename_i hstreaming
      dsimp only at h
      split at h
      · cases h
      · split at h
        · rename_i hparse
          split at h
          · cases h
          · cases h
            exact .chunked hstreaming (by omega) hparse
        · cases h
    · rename_i hstreaming
      have hplain : isStreaming c.vr.payloadHash = false := by simpa using hstreaming
      split at h
      · cases h
      · split at h
        · rename_i hhex
          cases h
          exact .hashed hplain (by omega) hhex
        · rename_i hhex
          cases h
          exact .raw hplain (by omega) (by simpa using hhex)

/-- Only a streaming sentinel and a hexadecimal hash get a reader of their own. -/
theorem requestBody_eq_ok [Unicode] {c : OpCtx} {payload : Payload} {length : Int}
    (h : requestBody c = .ok (payload, length)) :
    (isStreaming c.vr.payloadHash = true ∧ ∃ trailerAlg, payload = .chunked trailerAlg length) ∨
    (isStreaming c.vr.payloadHash = false ∧ 0 ≤ c.r.contentLength ∧
      payload = if isHexSHA256 c.vr.payloadHash then .hashed c.vr.payloadHash c.r.contentLength
        else .raw c.r.contentLength) := by
  obtain ⟨trailerAlg, -, -, hopened⟩ := requestBody_opened h
  cases hopened with
  | chunked hstreaming _ _ => exact .inl ⟨hstreaming, trailerAlg, rfl⟩
  | hashed hplain hnonneg hhex => exact .inr ⟨hplain, hnonneg, by rw [hhex]; rfl⟩
  | raw hplain hnonneg hhex => exact .inr ⟨hplain, hnonneg, by rw [hhex]; rfl⟩

/-- `UNSIGNED-PAYLOAD`, with which the client signs no hash of its body. -/
def unsignedPayload : Bytes := str "UNSIGNED-PAYLOAD"

/-- The bytes handed out are those the client signed, as far as its payload hash says. -/
def BodyVerified (crypto : Crypto) (payloadHash : Bytes) (reader : BodyReader) (data : Bytes) : Prop :=
  payloadHash = unsignedPayload ∨ (isStreaming payloadHash = true ∧ reader.isChunked = true) ∨
    payloadHash.map lowerByte = hexEncode (crypto.sha256 data)

theorem lt_of_isHexByte : ∀ b, isHexByte b = true → b < 0x80 := forall_byte (by decide +kernel)

theorem isHexByte_of_lowerByte : ∀ b, isHexByte (lowerByte b) = true → isHexByte b = true :=
  forall_byte (by decide +kernel)

theorem toLower_hash [Unicode] {h : Bytes} (hhex : isHexSHA256 h = true) :
    toLower h = h.map lowerByte := by
  rw [isHexSHA256, Bool.and_eq_true, List.all_eq_true] at hhex
  exact toLower_ascii fun b hb => lt_of_isHexByte b (hhex.2 b hb)

theorem isHexByte_of_mem_hexEncode {b : Bytes} {y : UInt8} (hy : y ∈ hexEncode b) :
    isHexByte y = true := by
  have hdigit : ∀ d < 16, isHexByte (hexDigitLower d) = true := by decide
  obtain ⟨d, hd, rfl⟩ := mem_hexEncode hy
  exact hdigit d hd

theorem isHexSHA256_of_eq {crypto : Crypto} (hsize : ∀ b, (crypto.sha256 b).length = 32)
    {h data : Bytes} (heq : h.map lowerByte = hexEncode (crypto.sha256 data)) :
    isHexSHA256 h = true := by
  have hlen : h.length = 64 := by
    have hmapped := congrArg List.length heq
    rw [List.length_map, length_hexEncode, hsize] at hmapped
    exact hmapped
  rw [isHexSHA256, Bool.and_eq_true, List.all_eq_true]
  refine ⟨by simp [hlen], ?_⟩
  intro b hb
  apply isHexByte_of_lowerByte
  apply isHexByte_of_mem_hexEncode
  rw [← heq]
  exact List.mem_map_of_mem hb

/-- A body is verified exactly when the payload hash is one that `requestBody` knows: any
    other value gets the bytes unseen. -/
theorem requestBody_verified_iff [Unicode] {crypto : Crypto}
    (hsize : ∀ b, (crypto.sha256 b).length = 32) (newHash : Bytes → Option (Bytes → Bytes))
    (formatAmzDate : Time → Bytes) (verified : Verified) {c : OpCtx} {payload : Payload}
    {length : Int} {body : Source} {data : Bytes}
    (hbody : 0 ≤ c.r.contentLength → (body.bytes.length : Int) ≤ c.r.contentLength)
    (hopen : requestBody c = .ok (payload, length))
    (hread : ReadsToEOF crypto (openBody crypto newHash formatAmzDate verified body payload) data) :
    BodyVerified crypto c.vr.payloadHash
        (openBody crypto newHash formatAmzDate verified body payload) data ↔
      c.vr.payloadHash = unsignedPayload ∨ isStreaming c.vr.payloadHash = true ∨
        isHexSHA256 c.vr.payloadHash = true := by
  constructor
  · intro hverified
    rcases hverified with hunsigned | ⟨hstreaming, -⟩ | heq
    · exact .inl hunsigned
    · exact .inr (.inl hstreaming)
    · exact .inr (.inr (isHexSHA256_of_eq hsize heq))
  · intro hknown
    rcases requestBody_eq_ok hopen with ⟨hstreaming, trailerAlg, rfl⟩ | ⟨hplain, hlength, rfl⟩
    · exact .inr (.inl ⟨hstreaming, rfl⟩)
    · rcases hknown with hunsigned | hstreaming | hhex
      · exact .inl hunsigned
      · simp [hplain] at hstreaming
      · -- the verifier compares with the lower case of the signed value
        rw [if_pos hhex] at hread
        have hsound := newPayloadVerifier_sound crypto c.vr.payloadHash (hbody hlength)
        have hmatch := PayloadVerifier.readsToEOF hread rfl hsound
        exact .inr (.inr ((toLower_hash hhex).symm.trans hmatch.symm))

/-- An upload of three bytes under a payload hash. -/
def uploadCtx (payloadHash : Bytes) : OpCtx :=
  { sharedDeleteCtx with
    r := { sharedDeleteRequest with contentLength := 3 }
    vr := { sharedDeleteCtx.vr with payloadHash } }

def threeBytes : Source where
  fragments := [str "ab", str "c"]
  final := .eof
  finalWithData := false

/-- A sentinel of the signature scheme that `IsStreaming` does not list. -/
def ecdsaPayload : Bytes := str "STREAMING-AWS4-ECDSA-P256-SHA256-PAYLOAD"

theorem raw_readsToEOF [Unicode] (crypto : Crypto) :
    ReadsToEOF crypto (.raw threeBytes) (str "abc") := by
  have h : str "abc" = str "ab" ++ (str "c" ++ []) := by decide
  rw [h]
  exact .more (n := 4) rfl (.more (n := 4) rfl (.last (n := 4) rfl))

theorem ecdsaPayload_unverified :
    let _ := asciiTables
    requestBody (uploadCtx ecdsaPayload) = .ok (.raw 3, 3) ∧
      ∀ crypto : Crypto, (∀ b, (crypto.sha256 b).length = 32) →
        ReadsToEOF crypto (.raw threeBytes) (str "abc") ∧
          ¬BodyVerified crypto ecdsaPayload (.raw threeBytes) (str "abc") := by
  intro _
  refine ⟨by decide +kernel, fun crypto hsize => ⟨raw_readsToEOF crypto, ?_⟩⟩
  intro hverified
  rcases hverified with hunsigned | ⟨hstreaming, -⟩ | heq
  · exact absurd hunsigned (by decide)
  · exact absurd hstreaming (by decide)
  · exact absurd (isHexSHA256_of_eq hsize heq) (by decide +kernel)

/-- A hash function that gives the hash the upload declares. -/
def zeroCrypto : Crypto where
  sha256 _ := List.replicate 32 0
  hmac _ data := data

def zeroHash : Bytes := List.replicate 64 (ch '0')

theorem zeroHash_verified :
    let _ := asciiTables
    isHexSHA256 zeroHash = true ∧
      BodyVerified zeroCrypto zeroHash (.hashed (newPayloadVerifier threeBytes zeroHash 3)) (str "abc") := by
  intro _
  have hhex : isHexSHA256 zeroHash = true := by decide +kernel
  have hopen : requestBody (uploadCtx zeroHash) = .ok (.hashed zeroHash 3, 3) := by decide +kernel
  have hread : ReadsToEOF zeroCrypto (.hashed (newPayloadVerifier threeBytes zeroHash 3))
      (str "abc") := by
    have h : str "abc" = str "ab" ++ (str "c" ++ []) := by decide
    rw [h]
    exact .more (n := 4) rfl (.more (n := 4) rfl (.last (n := 4) rfl))
  have hiff := requestBody_verified_iff (c := uploadCtx zeroHash) (fun _ => rfl) (fun _ => none)
    (fun _ => []) ⟨[], [], [], 0, [], [], zeroHash⟩ (fun _ => by decide) hopen hread
  exact ⟨hhex, hiff.mpr (.inr (.inr hhex))⟩

end S3Gateway.S3gw
