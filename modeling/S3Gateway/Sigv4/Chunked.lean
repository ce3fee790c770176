import S3Gateway.Go.Bufio
import S3Gateway.Go.Strconv
import S3Gateway.Go.Utf8
import S3Gateway.Sigv4.Crypto

/-! # The aws-chunked decoder

`chunked.go`: a reader that takes the framing off a body, checks each chunk against the
signature chain and the trailer against the payload.  Hashes are kept as the bytes that
were written to them.  After a failure only the error is read again, so a failed reader
keeps the rest of its state as it was before the call. -/

namespace S3Gateway.Sigv4

open Go S3err Fallible

/-! ## Errors -/

inductive ReadError where
  | io (e : StreamError)
  | s3 (e : S3Error)
  /-- `chunk size %d exceeds the remaining x-amz-decoded-content-length %d` -/
  | chunkTooLarge (size undecoded : Int)
  /-- `malformed chunk size %q` -/
  | malformedSize (text : Bytes)
  /-- `unknown chunk extension %q` -/
  | unknownExtension (name : Bytes)
  /-- `missing chunk signature` -/
  | missingSignature
  /-- `malformed chunk: expected CRLF` -/
  | expectedCRLF
  /-- `chunk framing line exceeds %d bytes` -/
  | lineTooLong (max : Nat)
deriving DecidableEq

def incompleteBody : ReadError :=
  .s3 { status := 400, code := str "IncompleteBody",
        message := str ("You did not provide the number of bytes specified by the " ++
          "x-amz-decoded-content-length HTTP header."), cause := .other }

def truncateForError (s : Bytes) : Bytes := if s.length ≤ 64 then s else s.take 64 ++ str "..."

/-! ## Framing -/

def maxChunkLineLen : Nat := 8 * 1024

/-- `strings.TrimRight(s, "\r\n")`. -/
def trimLineEnd (s : Bytes) : Bytes :=
  (s.reverse.dropWhile fun b => b = ch '\r' ∨ b = ch '\n').reverse

/-- A turn of `readLine` after `sb` was read: the whole line, or one more byte of it. -/
def readLineByte (sb : Bytes) (r : BufReader) : Except ReadError ((Bytes ⊕ UInt8) × BufReader) :=
  match r.readByte with
  | (.error e, r) =>
    if e = .eof ∧ sb ≠ [] then .ok (.inl (trimLineEnd sb), r) else .error (.io e)
  | (.ok b, r) => .ok (if b = ch '\n' then .inl (trimLineEnd sb) else .inr b, r)

/-- The loop of `readLine`; `room` is what the line may still grow by. -/
def readLineLoop : Nat → Bytes → BufReader → Except ReadError (Bytes × BufReader)
  | 0, sb, r => do
    match ← readLineByte sb r with
    | (.inl line, r) => .ok (line, r)
    | (.inr _, _) => .error (.lineTooLong maxChunkLineLen)
  | room + 1, sb, r => do
    match ← readLineByte sb r with
    | (.inl line, r) => .ok (line, r)
    | (.inr b, r) => readLineLoop room (sb ++ [b]) r

def readLine (r : BufReader) : Except ReadError (Bytes × BufReader) :=
  readLineLoop maxChunkLineLen [] r

def readCRLF (r : BufReader) : Except ReadError BufReader :=
  match r.readFull 2 with
  | (_, some _, _) => .error incompleteBody
  | (b, none, r) => if b = str "\r\n" then .ok r else .error .expectedCRLF

/-- The hexadecimal size at the start of a chunk header. -/
def parseChunkSize (sizeStr : Bytes) : Except ReadError Int :=
  match parseInt 16 64 sizeStr with
  | some size => if size < 0 then .error (.malformedSize (truncateForError sizeStr)) else .ok size
  | none => .error (.malformedSize (truncateForError sizeStr))

/-- The signature in the extension of a chunk header, empty without one. -/
def parseChunkExtension (ext : Bytes) (hasExt : Bool) : Except ReadError Bytes :=
  let (name, value, _) := cut (ch '=') ext
  if !hasExt then .ok []
  else if name ≠ str "chunk-signature" then .error (.unknownExtension (truncateForError name))
  else .ok value

/-- What `readChunkHeader` makes of a line: the size of the chunk and the signature it
    declares. -/
def parseChunkHeader (signed : Bool) (line : Bytes) : Except ReadError (Int × Bytes) := do
  let (sizeStr, ext, hasExt) := cut (ch ';') line
  let size ← parseChunkSize sizeStr
  let chunkSig ← parseChunkExtension ext hasExt
  if signed && chunkSig == [] then .error .missingSignature else .ok (size, chunkSig)

/-! ## The reader -/

structure ChunkParams where
  crypto : Crypto
  signed : Bool
  trailer : Bool
  signingKey : Bytes
  timestamp : Bytes
  scope : Bytes
  ckAlg : Bytes
  /-- the base64 form of the checksum to verify, for a declared trailer -/
  checksum : Option (Bytes → Bytes)
  checksum_trailer : checksum.isSome = true → trailer = true

structure ChunkedReader where
  r : BufReader
  prevSig : Bytes
  chunkSig : Bytes
  /-- written to `chunkHash` -/
  chunkData : Bytes
  /-- written to `ckHash` -/
  ckData : Bytes
  ckSeen : Bool
  remaining : Int
  undecoded : Int
  started : Bool
  eof : Bool
  err : Option ReadError

/-- The parameters `NewChunkedReader` sets; `newHash` is `checksum.NewHash` followed by
    `checksum.Base64`, `formatAmzDate` formats the signing time. -/
def chunkParams (crypto : Crypto) (newHash : Bytes → Option (Bytes → Bytes))
    (formatAmzDate : Time → Bytes) (vr : Verified) (trailerAlg : Bytes) : ChunkParams :=
  let signed := vr.payloadHash == streamingSHA256 || vr.payloadHash == streamingSHA256T
  let trailer := hasSuffix vr.payloadHash (str "-TRAILER")
  let declared := trailer && trailerAlg != []
  { crypto, signed, trailer
    signingKey := if signed then vr.signingKey else []
    timestamp := if signed then formatAmzDate vr.signingTime else []
    scope := if signed then vr.scope else []
    ckAlg := if declared then trailerAlg else []
    checksum := if declared then newHash trailerAlg else none
    checksum_trailer := by
      intro h
      split at h
      · rename_i hdeclared
        exact (Bool.and_eq_true_iff.mp hdeclared).1
      · cases h }

def newChunkedReader (p : ChunkParams) (vr : Verified) (body : Source) (decodedLength : Int) :
    ChunkedReader where
  r := .new body
  prevSig := if p.signed then vr.signature else []
  chunkSig := []
  chunkData := []
  ckData := []
  ckSeen := false
  remaining := 0
  undecoded := decodedLength
  started := false
  eof := false
  err := none

/-- The signature a chunk must carry after `prevSig`. -/
def chunkSignature (p : ChunkParams) (prevSig data : Bytes) : Bytes :=
  hexEncode (p.crypto.hmac p.signingKey (join [
    str "AWS4-HMAC-SHA256-PAYLOAD", p.timestamp, p.scope, prevSig,
    hexEncode (p.crypto.sha256 []), hexEncode (p.crypto.sha256 data)] (str "\n")))

section Reader

variable [Unicode] (p : ChunkParams)

omit [Unicode] in
def readChunkHeader (cr : ChunkedReader) : Except ReadError (Int × ChunkedReader) :=
  match readLine cr.r with
  | .error e => .error (if e = .io .eof then incompleteBody else e)
  | .ok (line, r) => do
    let (size, chunkSig) ← parseChunkHeader p.signed line
    .ok (size, { cr with r, chunkSig })

def verifyChunk (cr : ChunkedReader) : Except ReadError ChunkedReader :=
  if !p.signed then .ok cr
  else if chunkSignature p cr.prevSig cr.chunkData ≠ cr.chunkSig then .error (.s3 signatureDoesNotMatch)
  else .ok { cr with prevSig := cr.chunkSig, chunkData := [] }

def badDigest (message : Bytes) : ReadError :=
  .s3 { status := 400, code := str "BadDigest", message }

/-- A trailer line that names the declared checksum: its value. -/
def checksumTrailer (line : Bytes) : Option Bytes :=
  let (name, value, ok) := cut (ch ':') line
  if ok && equalFold (trimSpace name) (str "x-amz-checksum-" ++ p.ckAlg) then some (trimSpace value)
  else none

/-- The loop of `discardTrailers`; every line that is not the last takes a byte, so the
    length of what is left is enough fuel. -/
def trailersLoop : Nat → ChunkedReader → Except ReadError ChunkedReader
  | 0, _ => .error (.io .noProgress)
  | fuel + 1, cr =>
    let stop : Except ReadError ChunkedReader :=
      if p.checksum.isSome && !cr.ckSeen then
        .error (badDigest (str "The x-amz-checksum-" ++ p.ckAlg ++
          str " trailer declared by x-amz-trailer is missing."))
      else .ok cr
    match readLine cr.r with
    | .error e => if e = .io .eof then stop else .error e
    | .ok (line, r) =>
      if line = [] then stop
      else
        match p.checksum, checksumTrailer p line with
        | some checksum, some value =>
          if value ≠ checksum cr.ckData then
            .error (badDigest (str "The " ++ toUpper p.ckAlg ++
              str " you specified did not match the calculated checksum."))
          else trailersLoop fuel { cr with r, ckSeen := true }
        | _, _ => trailersLoop fuel { cr with r }

def discardTrailers (cr : ChunkedReader) : Except ReadError ChunkedReader :=
  if !p.trailer then
    -- the final CRLF is optional
    match readCRLF cr.r with
    | .ok r => .ok { cr with r }
    | .error _ => .ok cr
  else trailersLoop p (cr.r.rest.length + 1) cr

def readTerminal (cr : ChunkedReader) : Except ReadError ChunkedReader := do
  let r ← readCRLF cr.r
  let (size, cr) ← readChunkHeader p { cr with r }
  if size ≠ 0 then .error (.chunkTooLarge size 0)
  else do
    let cr ← verifyChunk p cr
    let cr ← discardTrailers p cr
    .ok { cr with eof := true }

/-- The CRLF after the previous chunk, if there was one. -/
def endChunk (cr : ChunkedReader) : Except ReadError ChunkedReader :=
  if cr.started then (readCRLF cr.r).map ({ cr with r := · }) else .ok cr

/-- The loop of `Read` over chunk headers, which turns at most once: the size it reads
    ends the stream or leaves bytes to deliver. -/
def nextChunk (cr : ChunkedReader) : Except ReadError ChunkedReader := do
  let cr ← endChunk cr
  let (size, cr) ← readChunkHeader p cr
  if cr.undecoded < size then .error (.chunkTooLarge size cr.undecoded)
  else
    let cr := { cr with started := true, undecoded := cr.undecoded - size }
    if size = 0 then do
      let cr ← verifyChunk p cr
      if cr.undecoded ≠ 0 then .error incompleteBody
      else do
        let cr ← discardTrailers p cr
        .ok { cr with eof := true }
    else .ok { cr with remaining := size }

/-- The end of a chunk: its signature, and with the declared length exhausted the rest of
    the stream too. -/
def finishChunk (cr : ChunkedReader) : Except ReadError ChunkedReader := do
  let cr ← verifyChunk p cr
  if cr.undecoded = 0 then readTerminal p cr else .ok cr

omit [Unicode] in
/-- The reader after `d` was taken out of the current chunk. -/
def afterData (cr : ChunkedReader) (r : BufReader) (d : Bytes) : ChunkedReader :=
  { cr with
    r
    remaining := cr.remaining - d.length
    chunkData := if p.signed then cr.chunkData ++ d else cr.chunkData
    ckData := if p.checksum.isSome then cr.ckData ++ d else cr.ckData }

/-- The part of `Read` that hands out data, into a buffer of `n` bytes. -/
def deliver (n : Nat) (cr : ChunkedReader) : Bytes × Option ReadError × ChunkedReader :=
  let (d, e, r) := cr.r.read (min n cr.remaining.toNat)
  let cr := afterData p cr r d
  let e := if e = some .eof ∧ 0 < cr.remaining then some incompleteBody else e.map .io
  if e ≠ none ∧ e ≠ some (.io .eof) then (d, e, { cr with err := e })
  else if cr.remaining = 0 then
    match finishChunk p cr with
    | .ok cr => (d, none, cr)
    | .error e => ([], some e, { cr with err := some e })
  else (d, none, cr)

/-- `cr.Read(p)` with `n = len(p)`: the bytes, the error and the reader after it. -/
def ChunkedReader.read (n : Nat) (cr : ChunkedReader) : Bytes × Option ReadError × ChunkedReader :=
  match cr.err with
  | some e => ([], some e, cr)
  | none =>
    if cr.eof then ([], some (.io .eof), cr)
    else if cr.remaining = 0 then
      match nextChunk p cr with
      | .error e => ([], some e, { cr with err := some e })
      | .ok cr => if cr.eof then ([], some (.io .eof), cr) else deliver p n cr
    else deliver p n cr

/-- Calls to `Read` with buffers of the given sizes: what each returned. -/
def ChunkedReader.reads (cr : ChunkedReader) : List Nat → List (Bytes × Option ReadError)
  | [] => []
  | n :: sizes =>
    let (d, e, cr) := cr.read p n
    (d, e) :: cr.reads sizes

end Reader

end S3Gateway.Sigv4
