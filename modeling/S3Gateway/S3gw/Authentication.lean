import S3Gateway.S3gw.Tenants
import S3Gateway.Sigv4.Coverage

/-! # Nothing without a signature

`auth.go` ties the verifier to the store: the lookup that supplies a secret also supplies the
identity the request acts as.  Here the two are put together with everything a request can
lead to.  A call to a backend is made for the tenant of a key of the store, and the request
bears a signature that this very key gives to it, over the whole canonical request or over the
policy of its form. -/

namespace S3Gateway.S3gw

open Go S3err Sigv4 Fallible Interaction Threads Partition

/-! ## Keys -/

inductive KeyError where
  | notFound
  | invalidToken
  | other
deriving DecidableEq

/-- `store.Key`, without the metadata that is handed on. -/
structure StoreKey where
  tenant : Bytes
  user : Bytes
  policy : Option Policy.UserPolicy
  secretAccessKey : Bytes
  signingKey : Option (Bytes → Bytes → Except KeyError Bytes)
  secretVersion : Bytes
  sessionToken : Bytes

/-- `Store.GetKey`, by access key id and session token. -/
abbrev KeyStore := Bytes → Bytes → Except KeyError StoreKey

def KeyError.lookupError : KeyError → LookupError
  | notFound => .unknownKey
  | invalidToken => .invalidToken
  | other => .other

def StoreKey.credential (k : StoreKey) : Credential where
  secretAccessKey := k.secretAccessKey
  hasSigningKey := k.signingKey.isSome
  secretVersion := k.secretVersion
  sessionToken := k.sessionToken

def secretLookup (keys : KeyStore) (accessKeyID sessionToken : Bytes) : Except LookupError Credential :=
  match keys accessKeyID sessionToken with
  | .error e => .error e.lookupError
  | .ok k => .ok k.credential

/-- The signing key of a key for a scope: through `signingKeyFunc`, or from the secret. -/
def StoreKey.derive (crypto : Crypto) (k : StoreKey) (date region : Bytes) : Except LookupError Bytes :=
  match k.signingKey with
  | none => .ok (deriveSigningKey crypto k.secretAccessKey date region)
  | some f =>
    match f date region with
    | .ok key => .ok key
    | .error .notFound => .error .unknownKey
    | .error _ => .error .other

/-- The scope of a credential, `akid/date/region/s3/aws4_request`. -/
def credentialScope (credential : Bytes) : Option KeyScope :=
  match split (ch '/') credential with
  | [akid, date, region, service, terminator] =>
    if service = str "s3" ∧ terminator = str "aws4_request" then some { akid, date, region } else none
  | _ => none

/-- The access key id a request presents, with the date and region of its scope. -/
def presentedScope (r : Request) : Option KeyScope :=
  if hasQueryAuth r then credentialScope (r.url.query.get (str "X-Amz-Credential"))
  else
    match parseAuthorizationHeader (r.header.get (str "Authorization")) with
    | .ok auth => some { akid := auth.accessKeyID, date := auth.date, region := auth.region }
    | .error _ => none

def presentedToken (r : Request) : Bytes :=
  if hasQueryAuth r then r.url.query.get (str "X-Amz-Security-Token")
  else r.header.get (str "X-Amz-Security-Token")

def presentedSignature (r : Request) : Bytes :=
  if hasQueryAuth r then r.url.query.get (str "X-Amz-Signature")
  else
    match parseAuthorizationHeader (r.header.get (str "Authorization")) with
    | .ok auth => auth.signature
    | .error _ => []

section Definitions

variable [Unicode]

/-- `g.verifyRequest(r)`, with the header verification leaves. -/
def verifyRequest (keys : KeyStore) (rt : Runtime) (v : Verifier) (r : Request) :
    Except S3Error (VerifiedRequest × Header) := do
  let (verified, header) ← verify rt v r
  match keys verified.accessKeyID (presentedToken r) with
  | .ok key =>
    .ok ({ tenant := key.tenant, user := key.user, userPolicy := key.policy, sourceIP := remoteIP r,
           payloadHash := verified.payloadHash, signedHeaders := verified.signedHeaders }, header)
  -- never taken: the verifier has looked the key up
  | .error _ => .error (internalError .other [])

/-- A gateway over a store of keys.  What the verifier derives for the credential of a key is
    that key's: its cache is transparent. -/
structure Backed (g : Gateway) (keys : KeyStore) (rt : Runtime) : Prop where
  verifyRequest : g.verifyRequest = S3gw.verifyRequest keys rt g.verifier
  lookup : g.verifier.lookup = secretLookup keys
  identity : ∀ akid token key, keys akid token = .ok key → g.identity akid token = ⟨key.tenant, key.user, key.policy⟩
  deriveKey : ∀ akid token key date region signingKey, keys akid token = .ok key →
    g.verifier.deriveKey akid key.credential date region = .ok signingKey →
    key.derive g.verifier.crypto date region = .ok signingKey

/-! ## Signatures of a key -/

/-- The request bears a signature of the key over its canonical form, made for the scope, and one in
    the header is of about now. -/
def SignedBy (rt : Runtime) (v : Verifier) (r : Request) (scope : KeyScope) (key : StoreKey) : Prop :=
  ∃ t signingKey payloadHash canonical,
    (¬hasQueryAuth r → v.now - t ≤ maxClockSkew ∧ -maxClockSkew ≤ v.now - t) ∧
    key.derive v.crypto scope.date scope.region = .ok signingKey ∧
    canonicalRequest rt.parseAuthority r (clientSignedHeaders r) (signatureParam r) payloadHash = .ok canonical ∧
    presentedSignature r = signature v.crypto signingKey t scope.text canonical

/-- The form bears a signature of the key over its policy, made for the scope. -/
def FormSignedBy (v : Verifier) (fields : Fields) (scope : KeyScope) (key : StoreKey) : Prop :=
  ∃ signingKey, key.derive v.crypto scope.date scope.region = .ok signingKey ∧
    fields.value (str "x-amz-signature") = hexEncode (v.crypto.hmac signingKey (fields.value (str "policy")))

/-- A key of the store stands behind the request: it is found under the access key id and the token
    presented, the token is its own, and the signature is. -/
inductive Authentic (keys : KeyStore) (rt : Runtime) (v : Verifier) (r : Request) (form : Form) : StoreKey → Prop where
  | request {scope : KeyScope} {key : StoreKey} (presented : presentedScope r = some scope)
      (found : keys scope.akid (presentedToken r) = .ok key)
      (token : validateSessionToken v scope.akid key.sessionToken (presentedToken r) = none)
      (signed : SignedBy rt v r scope key) : Authentic keys rt v r form key
  | upload {scope : KeyScope} {bucket objectKey : Bytes} {key : StoreKey} {fields : Fields}
      (read : postForm form bucket = .ok (fields, objectKey))
      (presented : credentialScope (fields.value (str "x-amz-credential")) = some scope)
      (found : keys scope.akid (fields.value (str "x-amz-security-token")) = .ok key)
      (token : validateSessionToken v scope.akid key.sessionToken (fields.value (str "x-amz-security-token")) = none)
      (signed : FormSignedBy v fields scope key) : Authentic keys rt v r form key

/-! ## From the verifier to the key -/

variable {keys : KeyStore} {rt : Runtime} {v : Verifier} {r : Request}

omit [Unicode] in
theorem lookupSecret_key (hlookup : v.lookup = secretLookup keys) {akid token : Bytes} {cred : Credential}
    (h : lookupSecret v akid token = .ok cred) : ∃ key, keys akid token = .ok key ∧ cred = key.credential := by
  unfold lookupSecret at h
  rw [hlookup, secretLookup] at h
  cases hkey : keys akid token with
  | error e =>
    rw [hkey] at h
    cases e <;> cases h
  | ok key =>
    rw [hkey] at h
    dsimp only at h
    split at h
    · cases h
    · cases h
      exact ⟨key, rfl, rfl⟩

omit [Unicode] in
theorem requestCredential_key (hlookup : v.lookup = secretLookup keys) {akid token : Bytes} {cred : Credential}
    (h : requestCredential v akid token = .ok cred) :
    ∃ key, keys akid token = .ok key ∧ cred = key.credential ∧ validateSessionToken v akid key.sessionToken token = none := by
  obtain ⟨cred', hcred, h⟩ := bind_eq_ok.mp h
  obtain ⟨_, htoken, h⟩ := bind_eq_ok.mp h
  cases h
  obtain ⟨key, hkey, rfl⟩ := lookupSecret_key hlookup hcred
  exact ⟨key, hkey, rfl, failWith_eq_ok.mp htoken⟩

omit [Unicode] in
theorem signingKey_derived {akid date region key : Bytes} {cred : Credential}
    (h : signingKey v akid cred date region = .ok key) : v.deriveKey akid cred date region = .ok key := by
  unfold signingKey at h
  split at h
  · cases h
    assumption
  · cases h
  · cases h

omit [Unicode] in
theorem presignScope_presented {query : Values} {scope : KeyScope} (h : presignScope v query = .ok scope) :
    credentialScope (query.get (str "X-Amz-Credential")) = some scope := by
  obtain ⟨_, -, h⟩ := bind_eq_ok.mp h
  split at h
  · rename_i hsplit
    simp only [bind_eq_ok, require_eq_ok] at h
    obtain ⟨_, hterminator, _, hservice, _, -, h⟩ := h
    cases h
    rw [credentialScope, hsplit]
    exact if_pos ⟨hservice, hterminator⟩
  · cases h

omit [Unicode] in
theorem postScope_presented {codec : PostCodec} {fields : Fields} {scope : PostScope}
    (h : postScope codec v fields = .ok scope) :
    credentialScope (fields.value (str "x-amz-credential")) = some ⟨scope.akid, scope.date, scope.region⟩ := by
  obtain ⟨_, -, h⟩ := bind_eq_ok.mp h
  split at h
  · rename_i hsplit
    simp only [bind_eq_ok, require_eq_ok] at h
    obtain ⟨_, hterminator, _, hservice, _, -, h⟩ := h
    cases h
    rw [credentialScope, hsplit]
    exact if_pos ⟨hservice, hterminator⟩
  · cases h

/-- What verification says of the key: it was looked up under the id and the token presented,
    and the signature was checked with a key derived for it. -/
structure VerifiedWith (v : Verifier) (r : Request) (vr : VerifiedHeaders) (cred : Credential)
    (scope : KeyScope) : Prop where
  presented : presentedScope r = some scope
  accessKeyID : vr.accessKeyID = scope.akid
  credential : requestCredential v scope.akid (presentedToken r) = .ok cred
  signingKey : v.deriveKey scope.akid cred scope.date scope.region = .ok vr.signingKey
  scope : vr.scope = scope.text
  signature : presentedSignature r = vr.signature
  fresh : ¬hasQueryAuth r → v.now - vr.signingTime ≤ maxClockSkew ∧ -maxClockSkew ≤ v.now - vr.signingTime

theorem checkSignature_key {s : KeyScope} {cred : Credential} {t : Time} {names : List Bytes}
    {drop payloadHash presented key : Bytes}
    (h : checkSignature rt v r s cred t names drop payloadHash presented = .ok key) :
    v.deriveKey s.akid cred s.date s.region = .ok key := by
  simp only [checkSignature, bind_eq_ok, mapError_eq_ok, require_eq_ok] at h
  obtain ⟨_, -, _, -, key', hkey, _, -, h⟩ := h
  cases h
  exact signingKey_derived hkey

omit [Unicode] in
theorem headerDate_fresh {auth : AuthHeader} {t : Time} (h : headerDate v auth r = .ok t) :
    v.now - t ≤ maxClockSkew ∧ -maxClockSkew ≤ v.now - t := by
  simp only [headerDate, bind_eq_ok, require_eq_ok] at h
  obtain ⟨_, -, t', -, _, -, _, hskew, h⟩ := h
  cases h
  exact hskew

theorem verifyHeaderRequest_key {vr : VerifiedHeaders} {h : Header} (hsigned : ¬hasQueryAuth r)
    (hverify : verifyHeaderRequest rt v r = .ok (vr, h)) : ∃ cred scope, VerifiedWith v r vr cred scope := by
  simp only [verifyHeaderRequest, authorizationOf, bind_eq_ok, mapError_eq_ok, require_eq_ok] at hverify
  obtain ⟨auth, ⟨_, hparse, _, hservice, _, -, hauth⟩, _, -, cred, hcred, t, hdate, _, -, key, hcheck, hresult⟩ := hverify
  cases hauth
  cases hresult
  refine ⟨cred, ⟨auth.accessKeyID, auth.date, auth.region⟩, ?_, rfl, ?_, checkSignature_key hcheck, ?_, ?_,
    fun _ => headerDate_fresh hdate⟩
  · rw [presentedScope, if_neg hsigned, hparse]
  · rw [presentedToken, if_neg hsigned]
    exact hcred
  · show auth.scope = _
    rw [AuthHeader.scope, hservice]
    rfl
  · rw [presentedSignature, if_neg hsigned, hparse]

theorem verifyPresignedRequest_key {vr : VerifiedHeaders} {h : Header} (hsigned : hasQueryAuth r)
    (hverify : verifyPresignedRequest rt v r = .ok (vr, h)) :
    ∃ cred scope, VerifiedWith v r vr cred scope := by
  simp only [verifyPresignedRequest, bind_eq_ok, require_eq_ok] at hverify
  obtain ⟨_, -, s, hscope, _, -, _, -, t, -, cred, hcred, key, hcheck, hresult⟩ := hverify
  cases hresult
  refine ⟨cred, s, ?_, rfl, ?_, checkSignature_key hcheck, rfl, ?_, fun hnot => absurd hsigned hnot⟩
  · rw [presentedScope, if_pos hsigned]
    exact presignScope_presented hscope
  · rw [presentedToken, if_pos hsigned]
    exact hcred
  · rw [presentedSignature, if_pos hsigned]

theorem verify_key {vr : VerifiedHeaders} {h : Header} (hverify : verify rt v r = .ok (vr, h)) :
    ∃ cred scope, VerifiedWith v r vr cred scope := by
  unfold verify at hverify
  split at hverify
  · cases hverify
  · split at hverify
    · rename_i hsigned
      exact verifyPresignedRequest_key hsigned hverify
    · rename_i hsigned
      split at hverify
      · exact verifyHeaderRequest_key hsigned hverify
      · cases hverify

/-! ## Every requester is authentic -/

variable {g : Gateway} {dec : Decoding} {form : Form} {vr : VerifiedRequest}

structure ActsAs (vr : VerifiedRequest) (key : StoreKey) : Prop where
  tenant : vr.tenant = key.tenant
  user : vr.user = key.user
  policy : vr.userPolicy = key.policy

theorem verifyRequest_authentic {header : Header} (hbacked : Backed g keys rt)
    (h : verifyRequest keys rt g.verifier r = .ok (vr, header)) :
    ∃ key, Authentic keys rt g.verifier r form key ∧ ActsAs vr key := by
  obtain ⟨⟨verified, header'⟩, hverify, h⟩ := bind_eq_ok.mp h
  obtain ⟨cred, scope, hwith⟩ := verify_key hverify
  obtain ⟨key, hfound, rfl, htoken⟩ := requestCredential_key hbacked.lookup hwith.credential
  obtain ⟨⟨-, -, canonical, hcanonical, hsignature⟩, -⟩ := verify_ok hverify
  dsimp only at h
  rw [hwith.accessKeyID, hfound] at h
  cases h
  refine ⟨key, .request hwith.presented hfound htoken ?_, rfl, rfl, rfl⟩
  refine ⟨verified.signingTime, verified.signingKey, verified.payloadHash, canonical, hwith.fresh, ?_,
    hcanonical, ?_⟩
  · exact hbacked.deriveKey _ _ key _ _ _ hfound hwith.signingKey
  · rw [hwith.signature, hsignature, hwith.scope]

theorem verifyPostRequest_authentic {fields : Fields} {bucket objectKey : Bytes} {pp : PostPolicy}
    (hbacked : Backed g keys rt) (hread : postForm form bucket = .ok (fields, objectKey))
    (h : verifyPostRequest g r fields = .ok (vr, pp)) :
    ∃ key, Authentic keys rt g.verifier r form key ∧ ActsAs vr key := by
  obtain ⟨⟨verified, pp'⟩, hverify, h⟩ := bind_eq_ok.mp h
  cases h
  simp only [verifyPost, bind_eq_ok, require_eq_ok] at hverify
  obtain ⟨scope, hscope, t, -, _, -, signingKey, hkey, _, hsignature, _, -, hresult⟩ := hverify
  cases hresult
  obtain ⟨cred, hcred, hkey⟩ := bind_eq_ok.mp hkey
  obtain ⟨_, htoken, hkey⟩ := bind_eq_ok.mp hkey
  obtain ⟨key, hfound, rfl⟩ := lookupSecret_key hbacked.lookup hcred
  have hsigned : FormSignedBy g.verifier fields ⟨scope.akid, scope.date, scope.region⟩ key := by
    refine ⟨signingKey, ?_, hsignature.symm⟩
    exact hbacked.deriveKey _ _ key _ _ _ hfound (signingKey_derived hkey)
  refine ⟨key, .upload hread (postScope_presented hscope) hfound (failWith_eq_ok.mp htoken) hsigned, ?_⟩
  have hidentity := hbacked.identity _ _ key hfound
  constructor
  · rw [hidentity]
  · rw [hidentity]
  · rw [hidentity]

theorem requester_authentic (hbacked : Backed g keys rt) (h : requester g dec r form = some vr) :
    ∃ key, Authentic keys rt g.verifier r form key ∧ ActsAs vr key := by
  -- an upload is signed by its form, every other request by itself
  unfold requester at h
  split at h
  · cases h
  · split at h
    · cases h
    · rename_i t _
      split at h
      · cases h
      · rename_i fields objectKey hread
        cases hpost : verifyPostRequest g r fields with
        | error e =>
          rw [hpost] at h
          cases h
        | ok verified =>
          rw [hpost] at h
          cases h
          exact verifyPostRequest_authentic hbacked hread hpost
    · cases hverified : g.verifyRequest r with
      | error e =>
        rw [hverified] at h
        cases h
      | ok verified =>
        rw [hverified] at h
        cases h
        rw [hbacked.verifyRequest] at hverified
        exact verifyRequest_authentic hbacked hverified

/-- As long as no request is signed with a key of the group, its buckets stay what they were,
    however many requests run and in whatever order. -/
theorem unsigned_leaves_buckets {Service Client V τ : Type} {serve : Site → Service} {via : Backend → Client}
    {group : Bytes → Bool} [DecidableEq τ] (dec : Decoding) (hbacked : Backed g keys rt) (hapart : Apart g serve group)
    (backends : Memory V SdkReply (BackendCall.writes serve via) (BackendCall.reads serve))
    (requests : τ → Request × Form) (m : Cell Service Client → V)
    (hunsigned : ∀ t key, Authentic keys rt g.verifier (requests t).1 (requests t).2 key → group key.tenant = false)
    (schedule : List τ) {b : Bucket} (hb : g.Knows b) (hgroup : group b.tenant = true) :
    (interleave (move actedReply backends) (incoming g dec requests m) schedule).shared (b.backend.cell serve) =
      m (b.backend.cell serve) := by
  have hcalls : ∀ t, (handleRequest g dec (requests t).1 (requests t).2).EachCall fun call =>
      ∀ cell ∈ call.writes serve via, ¬GroupBucket g serve group cell := by
    intro t
    refine Prog.eachCall_iff.mpr fun call hcall => ?_
    obtain ⟨vr, name, b', hfrom, hresolved, htouches⟩ := touches_of_issues hcall
    obtain ⟨key, hauthentic, hacts⟩ := requester_authentic hbacked hfrom
    refine htouches.leaves_buckets hapart (knows_of_resolveBucket hresolved) ?_
    rw [hacts.tenant]
    exact hunsigned t key hauthentic
  exact interleave_untouched hcalls schedule ⟨b, hb, hgroup, rfl⟩

end Definitions

/-! ### A signed request -/

/-- The only key there is, of tenant `tb`. -/
def onlyKey : StoreKey where
  tenant := str "tb"
  user := str "bob"
  policy := none
  secretAccessKey := str "secret"
  signingKey := none
  secretVersion := []
  sessionToken := []

def onlyKeys : KeyStore := fun akid _ => if akid = str "AK" then .ok onlyKey else .error .notFound

/-- A verifier at the one instant it knows, with functions of one value. -/
def constantVerifier : Verifier where
  region := []
  now := 0
  crypto := ⟨fun _ => [1], fun _ _ => [1]⟩
  lookup := secretLookup onlyKeys
  deriveKey := fun _ cred date region => .ok (deriveSigningKey ⟨fun _ => [1], fun _ _ => [1]⟩ cred.secretAccessKey date region)
  parseAmzDate := fun _ => some 0
  scopeDate := fun _ => str "20260101"

def signedGateway [Unicode] : Gateway :=
  { twoTenantGateway with
    verifier := constantVerifier
    identity := fun _ _ => ⟨str "tb", str "bob", none⟩
    verifyRequest := verifyRequest onlyKeys sampleRuntime constantVerifier }

/-- `DELETE /tb/k`, signed by the key of `tb`. -/
def signedDelete : Request where
  method := str "DELETE"
  requestURI := str "/tb/k"
  url := { path := str "/tb/k" }
  host := str "h"
  header :=
    [(str "Authorization", str ("AWS4-HMAC-SHA256 Credential=AK/20260101/r/s3/aws4_request, " ++
        "SignedHeaders=host;x-amz-content-sha256;x-amz-date, Signature=01")),
      (str "X-Amz-Content-Sha256", str "UNSIGNED-PAYLOAD"), (str "X-Amz-Date", str "20260101T000000Z")]
  contentLength := 0
  remoteAddr := []

theorem signedGateway_backed [Unicode] : Backed signedGateway onlyKeys sampleRuntime where
  verifyRequest := rfl
  lookup := rfl
  identity akid token key h := by
    unfold onlyKeys at h
    split at h
    · cases h
      rfl
    · cases h
  deriveKey akid token key date region signingKey h hderived := by
    unfold onlyKeys at h
    split at h
    · cases h
      cases hderived
      rfl
    · cases h

theorem signedGateway_apart [Unicode] : Apart signedGateway Site.endpoint (· == str "ta") :=
  ⟨twoTenantGateway_apart.names, twoTenantGateway_apart.cells, twoTenantGateway_apart.grants⟩

theorem signedDelete_calls :
    let _ := asciiTables
    (handleRequest signedGateway sharedDeleteCtx.dec signedDelete (.ok [])).firstCall.isSome = true := by
  decide +kernel

/-- The buckets of `ta` do not change while `tb` deletes. -/
theorem signedDelete_leaves_buckets :
    let _ := asciiTables
    (handleRequest signedGateway sharedDeleteCtx.dec signedDelete (.ok [])).firstCall.isSome = true ∧
      (interleave (move actedReply countingBackends)
        (incoming signedGateway sharedDeleteCtx.dec (fun _ : Bool => (signedDelete, .ok [])) fun _ => 0)
        [false, true]).shared ((onlyBucket (str "ta")).backend.cell Site.endpoint) = 0 := by
  intro _
  refine ⟨signedDelete_calls, ?_⟩
  have honly : ∀ {akid token key}, onlyKeys akid token = .ok key → (key.tenant == str "ta") = false := by
    intro akid token key h
    unfold onlyKeys at h
    split at h
    · cases h
      decide +kernel
    · cases h
  have hunsigned : ∀ (t : Bool) key, Authentic onlyKeys sampleRuntime constantVerifier signedDelete (.ok []) key →
      (key.tenant == str "ta") = false := by
    intro t key hauthentic
    cases hauthentic with
    | request _ hfound _ _ => exact honly hfound
    | upload _ _ hfound _ _ => exact honly hfound
  have hstored : twoTenantStore.getBucketByName (str "ta") = .ok (onlyBucket (str "ta")) := by
    simp [twoTenantStore]
  have hknown : signedGateway.Knows (onlyBucket (str "ta")) := .inr ⟨str "ta", hstored⟩
  exact unsigned_leaves_buckets (b := onlyBucket (str "ta")) sharedDeleteCtx.dec signedGateway_backed signedGateway_apart
    countingBackends (fun _ => (signedDelete, .ok [])) (fun _ => 0) hunsigned [false, true] hknown (by decide +kernel)

end S3Gateway.S3gw
