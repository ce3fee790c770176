import S3Gateway.S3gw.HandleRequest

/-! # Responses

`wrapHandler`: what the client is sent.  The request id is on every response, the CORS
headers of a bucket on every response once the bucket is resolved and its client there,
whether the operation then succeeds or not, and an error becomes a document. -/

namespace S3Gateway.S3gw

open Go S3err S3op Fallible Interaction

/-! ## What is sent -/

/-- `s3err.Error` as a document. -/
structure ErrorDocument where
  code : Bytes
  message : Bytes
  resource : Bytes
  requestID : Bytes
deriving DecidableEq

/-- A response: that of an operation, rendered from the definition of its bucket and the
    replies of the backend, or that of an error. -/
inductive ClientResponse where
  | rendered (header : Header) (bucket : Option Bucket) (response : Response)
  | failed (status : Nat) (header : Header) (document : Option ErrorDocument)

/-- `Write(w, r, e, requestID)`. -/
def writeError (header : Header) (r : Request) (e : S3Error) (requestID : Bytes) : ClientResponse :=
  if r.method = str "HEAD" ∨ e.status = 304 then .failed e.status header none
  else
    .failed e.status (header.set (str "Content-Type") (str "application/xml"))
      (some { code := e.code, message := e.message,
              resource := if e.resource = [] then r.url.path else e.resource, requestID })

section Definitions

variable [Unicode] (g : Gateway) (dec : Decoding) (r : Request) (form : Form)

/-! ## The bucket a response is decorated for -/

def reachBucket (vr : VerifiedRequest) (bucket : Bytes) : Except S3Error Bucket := do
  let b ← resolveBucket g vr bucket
  checkClient g b
  .ok b

/-- `handlePostObject` as far as the CORS headers. -/
def reachPost (t : Target) : Except S3Error Bucket := do
  failWith (ParamSet.check [] r.url.query)
  failWith (checkSSEC (newSignedHeader r []))
  let (fields, _) ← postForm form t.bucket
  let (vr, _) ← verifyPostRequest g r fields
  failWith ((newSignedHeader r []).checkKnownAmzHeaders g.checksums.knownHeader)
  reachBucket g vr t.bucket

/-- `handleRequest` from `verifyRequest` on, as far as the CORS headers: the request as it is
    by then, and the bucket if it names one. -/
def reachSigned : Except S3Error (Request × Option Bucket) := do
  let (vr, header) ← g.verifyRequest r
  let r := { r with header }
  failWith ((newSignedHeader r vr.signedHeaders).checkKnownAmzHeaders g.checksums.knownHeader)
  let t ← orError (requestTarget g.vhostSuffix r) invalidURI
  if t.bucket = [] then .ok (r, none)
  else do
    let b ← reachBucket g vr t.bucket
    .ok (r, some b)

/-- The bucket whose definition a response may show, with the request it is shown to. -/
def reached : Except S3Error (Request × Option Bucket) := do
  if r.method = str "OPTIONS" then .ok (r, none)
  else
    match ← uploadTarget g dec r with
    | some t => do
      let b ← reachPost g r form t
      .ok (r, some b)
    | none => reachSigned g r

/-- The headers that are on the response before the operation runs. -/
def responseHeader (requestID : Bytes) : Header :=
  let header : Header := [(canonicalHeaderKey (str "x-amz-request-id"), requestID)]
  match reached g dec r form with
  | .ok (r, some b) => Cors.setHeaders header r b.cors
  | _ => header

def report (requestID : Bytes) : HandlerResult → ClientResponse
  | .error e => writeError (responseHeader g dec r form requestID) r e requestID
  | .ok response =>
    .rendered (responseHeader g dec r form requestID) ((reached g dec r form).toOption.bind (·.2)) response

/-- `wrapHandler(handleRequest)`: the response to a request. -/
def serve (requestID : Bytes) : Prog BackendCall BackendReply ClientResponse :=
  (handleRequest g dec r form).bind fun result => .pure (report g dec r form requestID result)

end Definitions

/-! ## Calls go where the response says -/

section Reached

variable [Unicode] {g : Gateway} {dec : Decoding} {r : Request} {form : Form} {call : BackendCall}

theorem reachPost_of_preparePost {t : Target} {c : OpCtx} {fields : Sigv4.Fields} {pp : Sigv4.PostPolicy}
    (h : preparePost g dec r form t = .ok (c, fields, pp)) : reachPost g r form t = .ok c.cfg := by
  simp only [preparePost, bind_eq_ok] at h
  obtain ⟨u₁, hparams, u₂, hssec, f, hform, p, hverified, u₃, hknown, b, hresolved, u₄, hclient,
    _, -, _, -, _, -, _, -, hc⟩ := h
  cases hc
  simp only [reachPost, reachBucket, bind_eq_ok]
  exact ⟨u₁, hparams, u₂, hssec, f, hform, p, hverified, u₃, hknown, b, hresolved, u₄, hclient, rfl⟩

theorem reachPost_of_issues {t : Target} (h : (handlePostObject g dec r form t).Issues call) :
    ∃ b, reachPost g r form t = .ok b ∧ call.client = b.backend := by
  obtain ⟨c, fields, pp, hok, -, hrun⟩ := handlePostObject_issues h
  have hcall := Prog.eachCall_iff.mp (postPutObject_eachCall c fields pp) call hrun
  exact ⟨c.cfg, reachPost_of_preparePost hok, hcall.1⟩

theorem reachBucket_of_issues {vr : VerifiedRequest} {t : Target} (h : (handleBucket g dec r vr t).Issues call) :
    ∃ b, reachBucket g vr t.bucket = .ok b ∧ call.client = b.backend := by
  obtain ⟨b, u, hresolved, hclient, -, htarget⟩ := handleBucket_issues h
  obtain ⟨rt, c, hdispatched, hrun⟩ := dispatched_of_issues htarget
  exact ⟨b, bind_eq_ok.mpr ⟨b, hresolved, bind_eq_ok.mpr ⟨u, hclient, rfl⟩⟩, (hdispatched.mediates hrun).1⟩

theorem reachSigned_of_issues (h : (handleSigned g dec r).Issues call) :
    ∃ r' b, reachSigned g r = .ok (r', some b) ∧ call.client = b.backend := by
  obtain ⟨vr, header, t, hverified, hknown, htarget, hbucket, -, h⟩ := handleSigned_issues h
  obtain ⟨b, hreached, hcall⟩ := reachBucket_of_issues h
  refine ⟨{ r with header }, b, ?_, hcall⟩
  simp only [reachSigned, bind_eq_ok, orError_eq_ok]
  refine ⟨_, hverified, (), failWith_eq_ok.mpr hknown, t, htarget, ?_⟩
  rw [if_neg hbucket]
  exact bind_eq_ok.mpr ⟨b, hreached, rfl⟩

/-- A request that gets to the backend is answered for the bucket that it calls. -/
theorem reached_of_issues (h : (handleRequest g dec r form).Issues call) :
    ∃ r' b, reached g dec r form = .ok (r', some b) ∧ call.client = b.backend := by
  unfold handleRequest at h
  split at h
  · cases h
  · rename_i hmethod
    unfold reached
    rw [if_neg hmethod]
    split at h
    · exact absurd h not_issues_refuse
    · rename_i t hupload
      obtain ⟨b, hreached, hcall⟩ := reachPost_of_issues h
      exact ⟨r, b, bind_eq_ok.mpr ⟨_, hupload, bind_eq_ok.mpr ⟨b, hreached, rfl⟩⟩, hcall⟩
    · rename_i hupload
      obtain ⟨r', b, hreached, hcall⟩ := reachSigned_of_issues h
      exact ⟨r', b, bind_eq_ok.mpr ⟨_, hupload, hreached⟩, hcall⟩

end Reached

end S3Gateway.S3gw
