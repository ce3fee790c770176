import S3Gateway.S3gw.Authorize
import S3Gateway.S3gw.Backend
import S3Gateway.Go.Strconv
import S3Gateway.Sigv4.PostPolicy

/-! # The context of an operation

`opCtx` and what its methods read: the gateway's configuration, the request, the
resolved bucket and the requester.  Times, base64, XML bodies and the bytes a body
reader delivers come from `Decoding`, which stays open. -/

namespace S3Gateway.S3gw

open Go S3err S3op

/-! ## Configuration and request -/

/-- `Interceptor`: code around the operation whose only calls are to `next`, as
    often as it likes, and which answers what it likes. -/
abbrev Interceptor := Op → Interaction.Prog Unit HandlerResult HandlerResult

/-- What a `store.Key` says of its holder. -/
structure Identity where
  tenant : Bytes
  user : Bytes
  policy : Option Policy.UserPolicy

/-- The configuration of a `Gateway` that request handling reads. -/
structure Gateway where
  store : Store
  verifier : Sigv4.Verifier
  postCodec : Sigv4.PostCodec
  /-- the identity `GetKey` returns with a key, by access key id and session token -/
  identity : Bytes → Bytes → Identity
  /-- `verifyRequest`: header and presigned authentication, and the request's headers
      as it leaves them -/
  verifyRequest : Request → Except S3Error (VerifiedRequest × Header)
  /-- whether `backendClient` fails for a backend -/
  clientFails : Backend → Bool
  vhostSuffix : Bytes
  authorizer : Option (Op → Option S3Error)
  interceptors : List Interceptor
  /-- `StorageClassMapper.ToBackend` -/
  storageClass : Option (Op → Int → Bytes)
  /-- `KMSKeyMapper.ToBackend` -/
  kmsKey : Option (Op → Bytes → Bytes)
  checksums : ChecksumPolicy

structure DeleteRequestObject where
  key : Bytes
  versionID : Bytes
  etag : Bytes
  lastModifiedTime : Bytes
  size : Option Int
deriving DecidableEq

structure DeleteRequest where
  quiet : Bool
  objects : List DeleteRequestObject

structure RetentionRequest where
  mode : Bytes
  retainUntilDate : Bytes

/-- The decoders of the standard library a handler calls. -/
structure Decoding where
  /-- `http.ParseTime` -/
  httpTime : Bytes → Option Time
  /-- `time.Parse(objectLockTimeFormat, ..)` -/
  lockTime : Bytes → Option Time
  /-- `time.Parse(time.RFC3339, ..)` -/
  rfc3339 : Bytes → Option Time
  /-- `base64.StdEncoding.DecodeString` -/
  base64 : Bytes → Option Bytes
  /-- `mime.ParseMediaType`, the media type alone -/
  mediaType : Bytes → Option Bytes
  /-- what `io.ReadAll` gets from a body reader; an error the reader raised itself
      is kept -/
  readAll : Payload → Except (Option S3Error) Bytes
  xmlDelete : Bytes → Option DeleteRequest
  xmlComplete : Bytes → Option (List CompletedPart)
  xmlTagging : Bytes → Option (List (Bytes × Bytes))
  xmlRetention : Bytes → Option RetentionRequest
  xmlLegalHold : Bytes → Option Bytes

/-- `opCtx`.  Handlers read the query off the request again; it is the one the
    context was built with. -/
structure OpCtx where
  g : Gateway
  dec : Decoding
  r : Request
  cfg : Bucket
  vr : VerifiedRequest
  hdr : SignedHeader
  query : Values
  query_eq : query = r.url.query
  key : Bytes
  copySource : Bytes
  op : Op

/-- `aws.String(v)` for a value that is set only when it is not empty. -/
def present (v : Bytes) : Option Bytes := if v = [] then none else some v

def failWith (e : Option S3Error) : Except S3Error Unit := e.elim (.ok ()) .error

theorem failWith_eq_ok {e : Option S3Error} {u : Unit} : failWith e = .ok u ↔ e = none := by
  cases e with
  | none => simp [failWith]
  | some e => simp [failWith]

/-- Parses a value that is read only when it is not empty. -/
def parsePresent {α : Type} (v : Bytes) (parse : Bytes → Option α) (e : S3Error) :
    Except S3Error (Option α) :=
  if v = [] then .ok none else (parse v).elim (.error e) fun a => .ok (some a)

namespace OpCtx

variable [Unicode] (c : OpCtx)

def signed (name : Bytes) : Bytes := c.hdr.signedValue name

def attr (name : Bytes) : Bytes := c.hdr.attr name

def resource : Bytes := if c.key = [] then c.cfg.name else c.cfg.name ++ str "/" ++ c.key

def authorize (action : Action) : Option S3Error :=
  S3gw.authorize c.vr c.cfg action.name c.resource

def backendStorageClass (requested : Bytes) (size : Int) : Bytes :=
  match c.g.storageClass with
  | some toBackend => toBackend c.op size
  | none => requested

def applySSE (hdr : SignedHeader) : Except S3Error Encryption := do
  failWith (checkSSE hdr)
  let v := hdr.signedValue hdrSSE
  let id := hdr.signedValue hdrSSEKMSKeyID
  let id :=
    match c.g.kmsKey with
    | some toBackend => if v = str "aws:kms" then toBackend c.op id else id
    | none => id
  .ok { serverSideEncryption := v, sseKMSKeyId := present id }

def checksumAlgorithm : Except S3Error Bytes :=
  let v := c.signed (str "x-amz-checksum-algorithm")
  if v = [] then .ok []
  else
    match lookupAlgorithm v with
    | none => .error (invalidRequest (str "Value for x-amz-checksum-algorithm header is invalid."))
    | some a =>
      if c.g.checksums.support a = .refused then
        .error (notImplemented (str "checksum algorithm " ++ a.name))
      else .ok a.name

def checkChecksums (v : ChecksumValues) : Option S3Error :=
  (v.find? fun (a, _) => c.g.checksums.support a = .refused).map fun (a, _) =>
    notImplemented (str "checksum algorithm " ++ a.name)

def unsupportedTrailer : S3Error :=
  { status := 501, code := str "NotImplemented",
    message := str "The trailer declared by x-amz-trailer is not supported." }

def checkTrailer (alg : Bytes) : Option S3Error :=
  if alg ≠ [] ∧ c.g.checksums.supportOf alg ≠ .verified then some unsupportedTrailer else none

end OpCtx

/-! ## Bodies -/

def isHexByte (b : UInt8) : Bool := (hexVal b).isSome

def isHexSHA256 (s : Bytes) : Bool := s.length == 64 && s.all isHexByte

def sizeUnknown : Int := -1

section Bodies

variable [Unicode] (c : OpCtx)

/-- `requestBody(c)`: the reader and the decoded length. -/
def requestBody : Except S3Error (Payload × Int) := do
  let trailerAlg ← (trailerAlgorithm c.r.header).elim (.error OpCtx.unsupportedTrailer) .ok
  failWith (c.checkTrailer trailerAlg)
  if trailerAlg ≠ [] ∧ !hasSuffix c.vr.payloadHash (str "-TRAILER") then
    .error (invalidRequest (str "x-amz-trailer is declared but the payload carries no trailer."))
  else if Sigv4.isStreaming c.vr.payloadHash then
    let decodedLength := c.signed (str "x-amz-decoded-content-length")
    if decodedLength = [] then
      .error { status := 411, code := str "MissingContentLength",
               message := str "You must provide the x-amz-decoded-content-length HTTP header." }
    else
      match parseInt 10 64 decodedLength with
      | some length =>
        if length < 0 then
          .error (invalidRequest (str "Invalid x-amz-decoded-content-length header"))
        else .ok (.chunked trailerAlg length, length)
      | none => .error (invalidRequest (str "Invalid x-amz-decoded-content-length header"))
  else if c.r.contentLength < 0 then
    .error { status := 411, code := str "MissingContentLength",
             message := str "You must provide the Content-Length HTTP header." }
  else if isHexSHA256 c.vr.payloadHash then
    .ok (.hashed c.vr.payloadHash c.r.contentLength, c.r.contentLength)
  else .ok (.raw c.r.contentLength, c.r.contentLength)

def trailerChecksumAlgorithm : Bytes :=
  match trailerAlgorithm c.r.header with
  | some alg => if alg = [] ∨ !c.cfg.backend.isHTTPS then [] else toUpper alg
  | none => []

/-- The checksum algorithm an upload names: the trailer's, or that of a value
    header. -/
def uploadChecksumAlgorithm (cs : ChecksumValues) : Bytes :=
  let trailer := trailerChecksumAlgorithm c
  if trailer ≠ [] then trailer else (cs.algorithm.map (·.name)).getD []

/-- `readXMLBody(c, &req)`, with `unmarshal` for `xml.Unmarshal` into the request. -/
def readXMLBody {α : Type} (unmarshal : Bytes → Option α) : Except S3Error α := do
  let (body, _) ← requestBody c
  match c.dec.readAll body with
  | .error (some e) => .error e
  | .error none => .error (invalidRequest (str "failed to read request body") |>.withCause .other)
  | .ok data => (unmarshal data).elim (.error (malformedXML.withCause .other)) .ok

def contentMD5Header : Except S3Error (Option Bytes) :=
  match c.hdr.attributeValues (str "Content-MD5") with
  | [] => .ok none
  | v :: _ =>
    match c.dec.base64 v with
    | some b =>
      if b.length = 16 then .ok (some v)
      else .error { status := 400, code := str "InvalidDigest",
                    message := str "The Content-MD5 you specified was invalid." }
    | none => .error { status := 400, code := str "InvalidDigest",
                       message := str "The Content-MD5 you specified was invalid." }

def contentEncodingWithoutAWSChunked (v : Bytes) : Bytes :=
  join (((split (ch ',') v).map trimSpace).filter fun e => e ≠ [] && e ≠ str "aws-chunked") (str ", ")

/-- A time header that is ignored when it does not parse. -/
def lenientTime (parse : Bytes → Option Time) (v : Bytes) : Option Time :=
  if v = [] then none else parse v

/-- `applyConditionalHeaders(hdr, ..)`. -/
def conditionalHeaders : Conditionals where
  ifMatch := present (c.attr (str "If-Match"))
  ifNoneMatch := present (c.attr (str "If-None-Match"))
  ifModifiedSince := lenientTime c.dec.httpTime (c.attr (str "If-Modified-Since"))
  ifUnmodifiedSince := lenientTime c.dec.httpTime (c.attr (str "If-Unmodified-Since"))

/-- `applyObjectLockHeaders(hdr, ..)`. -/
def objectLockHeaders : ObjectLock where
  mode := c.signed hdrObjectLockMode
  retainUntilDate := lenientTime c.dec.rfc3339 (c.signed hdrObjectLockRetainUntil)
  legalHoldStatus := c.signed hdrObjectLockLegalHold

end Bodies

end S3Gateway.S3gw
