import S3Gateway.S3gw.BodyReading

/-! # XML bodies

`readXMLBody` reads a body to its end or to a limit, whichever comes first, and does not
tell the two apart. -/

namespace S3Gateway.S3gw

open Go S3err Sigv4

def maxXMLBodySize : Int := 16 * 1024 * 1024

structure LimitedReader where
  r : BodyReader
  n : Int

section Reading

variable [Unicode] (crypto : Crypto)

/-- `l.Read(p)` with `size = len(p)`. -/
def LimitedReader.read (l : LimitedReader) (size : Nat) : Bytes × Option ReadError × LimitedReader :=
  if l.n ≤ 0 then ([], some (.io .eof), l)
  else
    let (d, e, r) := l.r.read crypto (min size l.n.toNat)
    (d, e, { r, n := l.n - d.length })

/-- `io.ReadAll(l)` with the given room in its buffer at each call; `none` when more calls
    would be made. -/
def readAll : List Nat → LimitedReader → Option (Except ReadError Bytes)
  | [], _ => none
  | size :: sizes, l =>
    match l.read crypto size with
    | (d, none, l) => (readAll sizes l).map fun rest => rest.map (d ++ ·)
    | (d, some e, _) => some (if e = .io .eof then .ok d else .error e)

/-- `errors.AsType[*s3err.Error](err)`. -/
def ReadError.asS3Error : ReadError → Option S3Error
  | .s3 e => some e
  | _ => none

/-- What `readXMLBody` gets out of a body. -/
def readXMLBytes (digest : Algorithm → Bytes → Bytes) (formatAmzDate : Time → Bytes) (verified : Verified)
    (body : Source) (sizes : List Nat) (payload : Payload) : Option (Except (Option S3Error) Bytes) :=
  (readAll crypto sizes ⟨openBody crypto (newHash digest) formatAmzDate verified body payload, maxXMLBodySize⟩).map
    fun result => result.mapError ReadError.asS3Error

/-! ## Where reading stops -/

variable {crypto} {digest : Algorithm → Bytes → Bytes} {formatAmzDate : Time → Bytes} {verified : Verified}
  {body : Source} {payload : Payload}

/-- The bytes read are the complete payload, or as many as the limit allows. -/
theorem readAll_ok {sizes : List Nat} {l : LimitedReader} {delivered data : Bytes} {limit : Int}
    (h : Stands crypto digest formatAmzDate verified body delivered payload l.r)
    (hlimit : l.n = limit - delivered.length) (hnonneg : 0 ≤ l.n)
    (hread : readAll crypto sizes l = some (.ok data)) :
    ((delivered ++ data).length : Int) ≤ limit ∧
      (FullyVerified crypto digest formatAmzDate verified body (delivered ++ data) payload ∨
        ((delivered ++ data).length : Int) = limit ∧
          ∃ reader, Stands crypto digest formatAmzDate verified body (delivered ++ data) payload reader) := by
  -- on the reads to come: the data so far and what the limit still allows add up to the limit
  induction sizes generalizing l delivered data with
  | nil => cases hread
  | cons size sizes ih =>
    rw [readAll, LimitedReader.read] at hread
    by_cases hstop : l.n ≤ 0
    · -- the limit ends the body whatever its reader would say
      rw [if_pos hstop] at hread
      obtain rfl : [] = data := by simpa using hread
      rw [List.append_nil]
      exact ⟨by omega, .inr ⟨by omega, l.r, h⟩⟩
    · rw [if_neg hstop] at hread
      rcases hstep : l.r.read crypto (min size l.n.toNat) with ⟨d, e, r⟩
      rw [hstep] at hread
      cases e with
      | none =>
        obtain ⟨h', hlen⟩ := h.read_ok hstep
        simp only [Option.map_eq_some_iff] at hread
        obtain ⟨result, hrest, hdata⟩ := hread
        cases result with
        | error e => cases hdata
        | ok rest =>
          obtain rfl : d ++ rest = data := by simpa [Except.map] using hdata
          rw [← List.append_assoc]
          refine ih h' ?_ ?_ hrest
          · rw [List.length_append, hlimit]
            push_cast
            omega
          · dsimp only
            omega
      | some e =>
        dsimp only at hread
        split at hread
        · -- the end of the body under the limit is its verified end
          rename_i heof
          subst heof
          obtain rfl : d = data := by simpa using hread
          obtain ⟨hfull, hlen⟩ := h.read_eof hstep
          rw [List.length_append]
          exact ⟨by push_cast; omega, .inl hfull⟩
        · simp at hread

theorem readXMLBytes_ok {sizes : List Nat} {data : Bytes}
    (hread : readXMLBytes crypto digest formatAmzDate verified body sizes payload = some (.ok data)) :
    readAll crypto sizes ⟨openBody crypto (newHash digest) formatAmzDate verified body payload, maxXMLBodySize⟩ =
      some (.ok data) := by
  obtain ⟨result, hall, hresult⟩ := Option.map_eq_some_iff.mp hread
  rw [hall, Fallible.mapError_eq_ok.mp hresult]

/-- The bytes read are the complete payload, verified, exactly when it declares no more than
    the limit. -/
theorem fullyVerified_iff {sizes : List Nat} {data : Bytes}
    (h : Stands crypto digest formatAmzDate verified body [] payload
      (openBody crypto (newHash digest) formatAmzDate verified body payload))
    (hread : readXMLBytes crypto digest formatAmzDate verified body sizes payload = some (.ok data)) :
    FullyVerified crypto digest formatAmzDate verified body data payload ↔ payload.declared ≤ maxXMLBodySize := by
  have hpos : 0 < maxXMLBodySize := by decide
  have hstart : maxXMLBodySize = maxXMLBodySize - (([] : Bytes).length : Int) := by simp
  obtain ⟨hle, hstop⟩ := readAll_ok h hstart hpos.le (readXMLBytes_ok hread)
  rw [List.nil_append] at hle hstop
  constructor
  · intro hfull
    have hlength := hfull.length
    omega
  · intro hdeclared
    rcases hstop with hfull | ⟨hlen, reader, hstands⟩
    · exact hfull
    · have hne : data ≠ [] := by
        intro hnil
        rw [hnil, List.length_nil] at hlen
        omega
      have hatMost := hstands.length_le hne
      exact hstands.of_length (by omega) (by omega)

/-- A body that is accepted is complete and verified exactly when it declares no more bytes
    than are read. -/
theorem readXMLBody_verified_iff {α : Type} {c : OpCtx} {unmarshal : Bytes → Option α} {v : α} {sizes : List Nat}
    (hvr : verified.payloadHash = c.vr.payloadHash) (hserved : Served c.r.contentLength body)
    (hhash : isHexSHA256 c.vr.payloadHash = true ∨ isStreaming c.vr.payloadHash = true)
    (hread : ∀ payload length, requestBody c = .ok (payload, length) →
      readXMLBytes crypto digest formatAmzDate verified body sizes payload = some (c.dec.readAll payload))
    (hok : readXMLBody c unmarshal = .ok v) :
    ∃ payload length data, requestBody c = .ok (payload, length) ∧ c.dec.readAll payload = .ok data ∧
      unmarshal data = some v ∧
      (FullyVerified crypto digest formatAmzDate verified body data payload ↔ length ≤ maxXMLBodySize) := by
  obtain ⟨⟨payload, length⟩, hopen, h⟩ := Fallible.bind_eq_ok.mp hok
  dsimp only at h
  have hbytes := hread payload length hopen
  cases hdata : c.dec.readAll payload with
  | error e =>
    rw [hdata] at h
    cases e <;> cases h
  | ok data =>
    rw [hdata] at h hbytes
    have hvalue : unmarshal data = some v := by
      cases hvalue : unmarshal data with
      | none => simp [hvalue] at h
      | some value => simpa [hvalue] using h
    have hiff := fullyVerified_iff (stands_openBody hvr hserved hopen hhash) hbytes
    rw [requestBody_declared hopen] at hiff
    exact ⟨payload, length, data, hopen, hdata, hvalue, hiff⟩

end Reading

/-! ## A document that is not read to its end -/

/-- An operation on a body with the given length and payload hash, that gets the data out of
    it. -/
def xmlCtx (payloadHash : Bytes) (contentLength : Int) (data : Bytes) : OpCtx :=
  { sharedDeleteCtx with
    dec := { sharedDeleteCtx.dec with readAll := fun _ => .ok data }
    r := { sharedDeleteRequest with contentLength }
    vr := { sharedDeleteCtx.vr with payloadHash } }

def deleteDocument : Bytes := str "<Delete><Object><Key>k</Key></Object></Delete>"

def oneDelete : DeleteRequest := ⟨false, [⟨str "k", [], [], [], none⟩]⟩

/-- A decoder that knows one document, whatever follows it. -/
def decodeDelete (data : Bytes) : Option DeleteRequest :=
  if hasPrefix data deleteDocument then some oneDelete else none

def twoParts (first rest : Bytes) : Source where
  fragments := [first, rest]
  final := .eof
  finalWithData := false

theorem readAll_twoParts [Unicode] (crypto : Crypto) (want : Bytes) {first rest : Bytes}
    (hlen : (first.length : Int) = maxXMLBodySize) (hrest : rest ≠ []) :
    readAll crypto [first.length, 1] ⟨.hashed (newPayloadVerifier (twoParts first rest) want
      (first.length + rest.length)), maxXMLBodySize⟩ = some (.ok first) := by
  have hpos : 0 < rest.length := List.length_pos_iff.mpr hrest
  have hsource : (twoParts first rest).read first.length =
      (first, none, { twoParts first rest with fragments := [rest] }) := by
    simp [Source.read, twoParts]
  have hverifier : (newPayloadVerifier (twoParts first rest) want (first.length + rest.length)).read crypto
      first.length = (first, none,
        ⟨{ twoParts first rest with fragments := [rest] }, first, toLower want, rest.length, false⟩) := by
    simp [PayloadVerifier.read, newPayloadVerifier, hsource, hrest]
  have hlimit : 0 < maxXMLBodySize := by decide
  have hmin : min first.length maxXMLBodySize.toNat = first.length := by omega
  have hzero : maxXMLBodySize - first.length = 0 := by omega
  rw [readAll, LimitedReader.read, if_neg hlimit.not_ge]
  simp only [hmin, BodyReader.read, hverifier, hzero]
  simp [readAll, LimitedReader.read, Except.map]

def paddedDocument : Bytes := deleteDocument ++ List.replicate 16777170 (ch ' ')

theorem length_paddedDocument : (paddedDocument.length : Int) = maxXMLBodySize := by
  have hdocument : deleteDocument.length = 46 := by decide
  rw [paddedDocument, List.length_append, List.length_replicate, hdocument]
  rfl

theorem decode_paddedDocument : decodeDelete paddedDocument = some oneDelete := by
  rw [decodeDelete, paddedDocument, if_pos (hasPrefix_append _ _)]

/-- One byte beyond the limit, and any document is accepted under any hash. -/
theorem paddedDocument_unverified :
    let _ := asciiTables
    ∃ c body, Served c.r.contentLength body ∧
      requestBody c = .ok (.hashed zeroHash 16777217, 16777217) ∧ readXMLBody c decodeDelete = .ok oneDelete ∧
      ∀ crypto digest formatAmzDate verified,
        readXMLBytes crypto digest formatAmzDate verified body [16777216, 1] (.hashed zeroHash 16777217) =
            some (c.dec.readAll (.hashed zeroHash 16777217)) ∧
          ∀ data, c.dec.readAll (.hashed zeroHash 16777217) = .ok data →
            ¬FullyVerified crypto digest formatAmzDate verified body data (.hashed zeroHash 16777217) := by
  intro _
  have hlen : paddedDocument.length = 16777216 := Int.ofNat.inj length_paddedDocument
  have hone : (str "x").length = 1 := by decide
  have hopen : requestBody (xmlCtx zeroHash 16777217 paddedDocument) =
      .ok (.hashed zeroHash 16777217, 16777217) := by rfl
  refine ⟨xmlCtx zeroHash 16777217 paddedDocument, twoParts paddedDocument (str "x"), ?_, hopen, ?_, ?_⟩
  · have hbytes : ((twoParts paddedDocument (str "x")).bytes.length : Int) = 16777217 := by
      simp [Source.bytes, twoParts, hlen, hone]
    exact ⟨fun _ => hbytes.le, fun _ _ => hbytes⟩
  · rw [readXMLBody, hopen]
    show Option.elim (decodeDelete paddedDocument) (Except.error (malformedXML.withCause .other)) Except.ok =
      Except.ok oneDelete
    rw [decode_paddedDocument]
    rfl
  · intro crypto digest formatAmzDate verified
    have hread := readAll_twoParts crypto zeroHash length_paddedDocument (show str "x" ≠ [] by decide)
    rw [hlen, hone] at hread
    refine ⟨congrArg (Option.map _) hread, ?_⟩
    intro data hdata hfull
    cases hdata
    have hlength := hfull.length
    rw [hlen] at hlength
    exact absurd hlength (by decide)

/-- Three bytes are all read and compared with their hash. -/
theorem threeBytes_verified :
    let _ := asciiTables
    ∃ payload length data, requestBody (xmlCtx zeroHash 3 (str "abc")) = .ok (payload, length) ∧
      (xmlCtx zeroHash 3 (str "abc")).dec.readAll payload = .ok data ∧ length ≤ maxXMLBodySize ∧
      FullyVerified zeroCrypto (fun _ => id) (fun _ => []) ⟨[], [], [], 0, [], [], zeroHash⟩ threeBytes data
        payload := by
  intro _
  have hpayload : requestBody (xmlCtx zeroHash 3 (str "abc")) = .ok (.hashed zeroHash 3, 3) := by rfl
  have hserved : Served 3 threeBytes := ⟨fun _ => by decide, fun _ _ => by decide⟩
  have hbytes : ∀ payload length, requestBody (xmlCtx zeroHash 3 (str "abc")) = .ok (payload, length) →
      readXMLBytes zeroCrypto (fun _ => id) (fun _ => []) ⟨[], [], [], 0, [], [], zeroHash⟩ threeBytes [4, 4, 4]
        payload = some (.ok (str "abc")) := by
    intro payload length hopen
    obtain ⟨rfl, -⟩ := Prod.mk.inj (Except.ok.inj (hpayload.symm.trans hopen))
    rfl
  have hok : readXMLBody (xmlCtx zeroHash 3 (str "abc")) some = .ok (str "abc") := by rfl
  obtain ⟨payload, length, data, hopen, hread, -, hiff⟩ :=
    readXMLBody_verified_iff rfl hserved (.inl (by decide +kernel)) hbytes hok
  obtain ⟨-, rfl⟩ := Prod.mk.inj (Except.ok.inj (hpayload.symm.trans hopen))
  have hlength : (3 : Int) ≤ maxXMLBodySize := by decide
  exact ⟨payload, 3, data, hopen, hread, hlength, hiff.mpr hlength⟩

end S3Gateway.S3gw
