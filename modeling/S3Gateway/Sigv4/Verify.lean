import S3Gateway.Go.Date
import S3Gateway.Sigv4.Canonical
import S3Gateway.Sigv4.Crypto

/-! # Verification of a signed request

`sigv4.go`: a request is signed by its `Authorization` header or by its query.  Either way
the credential scope, the signing date and the list of signed headers are read first, then
the credential is looked up, and last the signature is recomputed.  A presigned request may
carry headers as query parameters, which are promoted once the signature has verified. -/

namespace S3Gateway.Sigv4

open Go S3err Fallible

/-! ## What verification takes from the Go library -/

structure Runtime where
  /-- the parser of an authority in a request line -/
  parseAuthority : Bytes → Option Bytes
  /-- the `%q` of `fmt` -/
  quote : Bytes → Bytes
  /-- the keys of a query in the order a `range` visits them -/
  rangeKeys : Values → List Bytes
  rangeKeys_perm : ∀ q, (rangeKeys q).Perm q.keys

def amzPrefix : Bytes := str "x-amz-"

def amzDateHeader : Bytes := str "X-Amz-Date"

def amzContentSha256 : Bytes := str "X-Amz-Content-Sha256"

/-! ## The `Authorization` header -/

structure AuthHeader where
  accessKeyID : Bytes := []
  /-- yyyymmdd of the credential scope -/
  date : Bytes := []
  region : Bytes := []
  service : Bytes := []
  signedHeaders : List Bytes := []
  signature : Bytes := []
deriving DecidableEq

def AuthHeader.scope (a : AuthHeader) : Bytes :=
  join [a.date, a.region, a.service, str "aws4_request"] (str "/")

inductive AuthHeaderError where
  | unsupportedAlgorithm
  | malformedComponent (part : Bytes)
  | malformedCredential (value : Bytes)
  | credentialEnd
  | unknownComponent (key : Bytes)
  | missingComponent
deriving DecidableEq

def AuthHeaderError.text (quote : Bytes → Bytes) : AuthHeaderError → Bytes
  | .unsupportedAlgorithm => str "unsupported algorithm"
  | .malformedComponent part => str "malformed component " ++ quote part
  | .malformedCredential value => str "malformed credential " ++ quote value
  | .credentialEnd => str "credential must end with aws4_request"
  | .unknownComponent key => str "unknown component " ++ quote key
  | .missingComponent => str "missing component"

/-- One turn of the loop over the components. -/
def authComponent (a : AuthHeader) (part : Bytes) : Except AuthHeaderError AuthHeader :=
  let (key, value, ok) := cut (ch '=') (trimSpace part)
  if !ok then .error (.malformedComponent part)
  else if key = str "Credential" then
    match split (ch '/') value with
    | [accessKeyID, date, region, service, terminator] =>
      if terminator ≠ str "aws4_request" then .error .credentialEnd
      else .ok { a with accessKeyID, date, region, service }
    | _ => .error (.malformedCredential value)
  else if key = str "SignedHeaders" then .ok { a with signedHeaders := split (ch ';') value }
  else if key = str "Signature" then .ok { a with signature := value }
  else .error (.unknownComponent key)

def parseAuthorizationHeader (v : Bytes) : Except AuthHeaderError AuthHeader :=
  let (algo, rest, ok) := cut (ch ' ') v
  if !ok || algo ≠ sigV4Algorithm then .error .unsupportedAlgorithm
  else do
    let a ← (split (ch ',') rest).foldlM authComponent {}
    if a.accessKeyID = [] ∨ a.signedHeaders = [] ∨ a.signature = [] then .error .missingComponent
    else .ok a

/-! ## Signed headers -/

section Headers

variable [Unicode]

inductive SignedHeaderListError where
  | notLowerCase (name : Bytes)
  | notSorted (name : Bytes)
  | authorization
  | noHost
deriving DecidableEq

/-- The loop of `checkSignedHeaderList`, after the name `prev`. -/
def signedHeaderListLoop : Option Bytes → Bool → List Bytes → Except SignedHeaderListError Unit
  | _, hasHost, [] => if hasHost then .ok () else .error .noHost
  | prev, hasHost, n :: rest =>
    if n = [] ∨ n ≠ toLower n then .error (.notLowerCase n)
    else if prev.any (bytesLe n ·) then .error (.notSorted n)
    else if n = str "authorization" then .error .authorization
    else signedHeaderListLoop (some n) (hasHost || n == str "host") rest

def checkSignedHeaderList (names : List Bytes) : Except SignedHeaderListError Unit :=
  signedHeaderListLoop none false names

/-- `signedHeaderSet(names)`: the keys of the map. -/
def signedHeaderSet (names : List Bytes) : List Bytes := names.map toLower

def requireSignedAmzHeaders (akid : Bytes) (h : Header) (signedHeaders : List Bytes) : Except S3Error Unit :=
  let signed := signedHeaders.map toLower
  let unsigned := (h.keys.map toLower).filter fun n => hasPrefix n amzPrefix && !signed.contains n
  require (unsigned = [])
    { status := 403, code := str "AccessDenied",
      message := str "There were headers present in the request which were not signed: " ++
        join (sortStrings unsigned) (str ", "),
      cause := .auth .unsignedHeaders akid }

def presignAuthParams : List Bytes := [
  str "X-Amz-Algorithm", str "X-Amz-Credential", str "X-Amz-Date", str "X-Amz-SignedHeaders",
  str "X-Amz-Signature", str "X-Amz-Security-Token"]

/-- `authParams[lk]`. -/
def isAuthParam (lk : Bytes) : Bool :=
  (presignAuthParams.map toLower).contains lk || lk == str "x-amz-expires"

def isHoisted (query : Values) (k : Bytes) : Bool :=
  hasPrefix (toLower k) amzPrefix && !isAuthParam (toLower k) && !(query.valuesOf k).isEmpty

/-- One turn of the loop of `promoteHoistedQueryParams`: the header and the names promoted. -/
def promoteParam (query : Values) (state : Header × List Bytes) (k : Bytes) : Header × List Bytes :=
  let (h, promoted) := state
  if !isHoisted query k then (h, promoted)
  else
    (if h.get k = [] then h.assign k (sortStrings (query.valuesOf k)) else h, promoted ++ [toLower k])

/-- `promoteHoistedQueryParams(r)`: the header it leaves and what it returns. -/
def promoteHoistedQueryParams (rt : Runtime) (r : Request) : Header × List Bytes :=
  (rt.rangeKeys r.url.query).foldl (promoteParam r.url.query) (r.header, [])

end Headers

/-! ## The signature -/

def signature (c : Crypto) (signingKey : Bytes) (t : Time) (scope canonical : Bytes) : Bytes :=
  hexEncode (c.hmac signingKey (sigV4Algorithm ++ str "\n" ++ formatAmzDate t ++ str "\n" ++ scope ++
    str "\n" ++ hexEncode (c.sha256 canonical)))

structure KeyScope where
  akid : Bytes
  date : Bytes
  region : Bytes

def KeyScope.text (s : KeyScope) : Bytes := join [s.date, s.region, str "s3", str "aws4_request"] (str "/")

/-- `Verified` of a request, with the names of the headers the signature covers. -/
structure VerifiedHeaders extends Verified where
  signedHeaders : List Bytes
deriving DecidableEq

section Verify

variable [Unicode] (rt : Runtime) (v : Verifier)

def checkSignature (r : Request) (s : KeyScope) (cred : Credential) (t : Time)
    (signedHeaders : List Bytes) (dropQuery payloadHash presented : Bytes) : Except S3Error Bytes := do
  let mismatch := signatureDoesNotMatch.withCause (.auth .signatureMismatch s.akid)
  (checkSignedHeaderList signedHeaders).mapError fun _ => mismatch
  let canonical ← (canonicalRequest rt.parseAuthority r signedHeaders dropQuery payloadHash).mapError
    fun name => invalidRequest
      (str "signed header " ++ rt.quote name ++ str " is not present in the request")
  let key ← signingKey v s.akid cred s.date s.region
  require (signature v.crypto key t s.text canonical = presented) mismatch
  .ok key

/-- The credential a request is checked against: that of the key, if it goes with the token
    presented. -/
def requestCredential (akid presentedToken : Bytes) : Except S3Error Credential := do
  let cred ← lookupSecret v akid presentedToken
  (validateSessionToken v akid cred.sessionToken presentedToken).elim (.ok ()) .error
  .ok cred

/-! ## By header -/

def headerMalformed (what : Bytes) : S3Error :=
  { status := 400, code := str "AuthorizationHeaderMalformed",
    message := str "The authorization header is malformed; " ++ what }

/-- The component part of `verifyHeaderRequest`: what the header states, for this service and
    region. -/
def authorizationOf (r : Request) : Except S3Error AuthHeader := do
  let auth ← (parseAuthorizationHeader (r.header.get (str "Authorization"))).mapError
    fun e => headerMalformed (e.text rt.quote ++ str ".")
  require (auth.service = str "s3") (headerMalformed (str "incorrect service."))
  require (v.region = [] ∨ auth.region = v.region) (headerMalformed
    (str "the region '" ++ auth.region ++ str "' is wrong; expecting '" ++ v.region ++ str "'"))
  .ok auth

/-- The time of a request signed by its header, close enough to now. -/
def headerDate (auth : AuthHeader) (r : Request) : Except S3Error Time := do
  let amzDate := r.header.get amzDateHeader
  require (amzDate ≠ []) (invalidRequest (str "Missing required header for this request: x-amz-date"))
  let t ← orError (v.parseAmzDate amzDate) (invalidRequest (str "Invalid x-amz-date header"))
  require (v.scopeDate t = auth.date) (headerMalformed
    (str "the date in the credential scope does not match the x-amz-date header."))
  require (v.now - t ≤ maxClockSkew ∧ -maxClockSkew ≤ v.now - t)
    { status := 403, code := str "RequestTimeTooSkewed",
      message := str "The difference between the request time and the current time is too large.",
      cause := .auth .timeSkewed auth.accessKeyID }
  .ok t

/-- `v.verifyHeaderRequest(r, lookup)`: the result and the header, which stays as it was. -/
def verifyHeaderRequest (r : Request) : Except S3Error (VerifiedHeaders × Header) := do
  let auth ← authorizationOf rt v r
  requireSignedAmzHeaders auth.accessKeyID r.header auth.signedHeaders
  let cred ← requestCredential v auth.accessKeyID (r.header.get (str "X-Amz-Security-Token"))
  let t ← headerDate v auth r
  let payloadHash := r.header.get amzContentSha256
  require (payloadHash ≠ [])
    (invalidRequest (str "Missing required header for this request: x-amz-content-sha256"))
  let key ← checkSignature rt v r { akid := auth.accessKeyID, date := auth.date, region := auth.region }
    cred t auth.signedHeaders [] payloadHash auth.signature
  .ok ({ accessKeyID := auth.accessKeyID, signingKey := key, signature := auth.signature,
         signingTime := t, scope := auth.scope, region := auth.region, payloadHash,
         signedHeaders := signedHeaderSet auth.signedHeaders }, r.header)

/-! ## By query -/

def queryParamsError (message : Bytes) : S3Error :=
  { status := 400, code := str "AuthorizationQueryParametersError", message }

/-- The parameters read from a presigned query, each once at most. -/
def requireSingleParams (query : Values) : Except S3Error Unit :=
  match (presignAuthParams ++ [str "X-Amz-Expires"]).find? fun p => 1 < (query.valuesOf p).length with
  | some p => .error (queryParamsError (p ++ str " must be specified only once"))
  | none => .ok ()

def presignScope (query : Values) : Except S3Error KeyScope := do
  require (query.get (str "X-Amz-Algorithm") = sigV4Algorithm)
    (queryParamsError (str "X-Amz-Algorithm only supports \"AWS4-HMAC-SHA256\""))
  match split (ch '/') (query.get (str "X-Amz-Credential")) with
  | [akid, date, region, service, terminator] => do
    require (terminator = str "aws4_request") (queryParamsError
      (str "Error parsing the X-Amz-Credential parameter; the Credential is mal-formed"))
    require (service = str "s3") (queryParamsError
      (str "Error parsing the X-Amz-Credential parameter; incorrect service"))
    require (v.region = [] ∨ region = v.region) (queryParamsError
      (str "Error parsing the X-Amz-Credential parameter; the region '" ++ region ++
        str "' is wrong; expecting '" ++ v.region ++ str "'"))
    .ok { akid, date, region }
  | _ => .error (queryParamsError
      (str "Error parsing the X-Amz-Credential parameter; the Credential is mal-formed"))

/-- `strings.Split(query.Get("X-Amz-SignedHeaders"), ";")`. -/
def presignSignedHeaders (query : Values) : List Bytes :=
  split (ch ';') (query.get (str "X-Amz-SignedHeaders"))

/-- `time.Duration(expires) * time.Second`, a product of machine integers. -/
def presignLifetime (expires : Int) : Int := (expires * second).bmod (2 ^ 64)

/-- The time of a presigned request, which has begun and not expired. -/
def presignDate (s : KeyScope) (query : Values) : Except S3Error Time := do
  let t ← orError (v.parseAmzDate (query.get (str "X-Amz-Date")))
    (queryParamsError (str "X-Amz-Date must be in the ISO8601 Long Format"))
  require (v.scopeDate t = s.date)
    (queryParamsError (str "Invalid credential date. Date is not the same as X-Amz-Date."))
  let expires ← orError ((parseInt 10 64 (query.get (str "X-Amz-Expires"))).filter (1 ≤ ·))
    (queryParamsError (str "X-Amz-Expires must be a positive integer"))
  require (presignLifetime expires ≤ maxPresignExpires) (queryParamsError
    (str ("X-Amz-Expires must be less than a week (in seconds); that is, the given X-Amz-Expires " ++
      "must be less than 604800 seconds")))
  require (v.now ≤ t + presignLifetime expires)
    { status := 403, code := str "AccessDenied", message := str "Request has expired",
      cause := .auth .expired s.akid }
  require (t ≤ v.now + maxClockSkew)
    { status := 403, code := str "AccessDenied", message := str "Request is not valid yet",
      cause := .auth .notYetValid s.akid }
  .ok t

/-- `v.verifyPresignedRequest(r, lookup)`: the result and the header with what was promoted. -/
def verifyPresignedRequest (r : Request) : Except S3Error (VerifiedHeaders × Header) := do
  let query := r.url.query
  requireSingleParams query
  let s ← presignScope v query
  let signedHeaders := presignSignedHeaders query
  require (signedHeaders.headD [] ≠ []) (queryParamsError (str "X-Amz-SignedHeaders is required"))
  requireSignedAmzHeaders s.akid r.header signedHeaders
  let t ← presignDate v s query
  let cred ← requestCredential v s.akid (query.get (str "X-Amz-Security-Token"))
  let payloadHash :=
    if r.header.get amzContentSha256 = [] then str "UNSIGNED-PAYLOAD" else r.header.get amzContentSha256
  let key ← checkSignature rt v r s cred t signedHeaders (str "X-Amz-Signature") payloadHash
    (query.get (str "X-Amz-Signature"))
  let (header, promoted) := promoteHoistedQueryParams rt r
  .ok ({ accessKeyID := s.akid, signingKey := key, signature := query.get (str "X-Amz-Signature"),
         signingTime := t, scope := s.text, region := s.region, payloadHash,
         signedHeaders := signedHeaderSet (signedHeaders ++ promoted) }, header)

/-! ## Either way -/

def hasQueryAuth (r : Request) : Prop := r.url.query.get (str "X-Amz-Signature") ≠ []

def hasHeaderAuth (r : Request) : Prop := r.header.get (str "Authorization") ≠ []

instance (r : Request) : Decidable (hasQueryAuth r) := inferInstanceAs (Decidable (_ ≠ _))

instance (r : Request) : Decidable (hasHeaderAuth r) := inferInstanceAs (Decidable (_ ≠ _))

/-- `v.Verify(r, lookup)`: the result and the header the request is left with. -/
def verify (r : Request) : Except S3Error (VerifiedHeaders × Header) :=
  if hasQueryAuth r ∧ hasHeaderAuth r then
    .error (invalidArgument (str ("Only one auth mechanism allowed; only the X-Amz-Algorithm query " ++
      "parameter, Signature query string parameter or the Authorization header should be specified")))
  else if hasQueryAuth r then verifyPresignedRequest rt v r
  else if hasHeaderAuth r then verifyHeaderRequest rt v r
  else .error (accessDenied.withCause (.auth .noAuth []))

end Verify

end S3Gateway.Sigv4
