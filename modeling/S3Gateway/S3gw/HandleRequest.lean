import S3Gateway.S3gw.PostObject

/-! # Requests

`handleRequest`: preflights, browser uploads, the listing of one's buckets, and
everything that is dispatched on a bucket.  Whatever the way, a call on another tenant's
bucket is one that bucket's policy allows. -/

namespace S3Gateway.S3gw

open Go S3err S3op Interaction Policy

section Definitions

variable [Unicode] (g : Gateway) (dec : Decoding) (r : Request)

/-! ## Without a bucket -/

def corsNotAllowed : S3Error :=
  { status := 403, code := str "AccessForbidden",
    message := str "CORSResponse: This CORS request is not allowed." }

def handlePreflight : HandlerResult :=
  if r.header.get (str "Origin") = [] ∨ r.header.get (str "Access-Control-Request-Method") = [] then
    .error { status := 400, code := str "BadRequest",
             message := str "Insufficient information. Origin request header needed." }
  else
    match (requestTarget g.vhostSuffix r).filter (·.bucket ≠ []) with
    | none => .error corsNotAllowed
    | some t =>
      match g.store.getBucketByName t.bucket with
      | .error .notFound => .error corsNotAllowed
      | .error e => .error (internalError (.store e) (str "bucket lookup failed"))
      | .ok b =>
        match Cors.allowPreflight r b.cors with
        | none => .error corsNotAllowed
        | some header => .ok (.preflight header)

def maxListBuckets : Int := 10000

def listPageSize : Except S3Error Int :=
  let v := r.url.query.get (str "max-buckets")
  if v = [] then .ok maxListBuckets
  else
    match parseInt 10 64 v with
    | some n =>
      if n < 1 ∨ maxListBuckets < n then
        .error (invalidArgument (str "max-buckets must be an integer between 1 and 10000"))
      else .ok n
    | none => .error (invalidArgument (str "max-buckets must be an integer between 1 and 10000"))

/-- One page of the entries: those after the token, at most `maxBuckets`, and the token
    of the next page. -/
def listPage (entries : List BucketEntry) (token : Bytes) (maxBuckets : Int) :
    List BucketEntry × Bytes :=
  let sorted := entries.insertionSort fun a b => bytesLe a.name b.name
  -- `sort.Search` for the first name above the token
  let rest := if token = [] then sorted else sorted.dropWhile fun e => bytesLe e.name token
  if maxBuckets < rest.length then
    let page := rest.take maxBuckets.toNat
    (page, (page.getLast?.map (·.name)).getD [])
  else (rest, [])

def listBuckets (vr : VerifiedRequest) : HandlerResult := do
  let maxBuckets ← listPageSize r
  match g.store.listBuckets vr.tenant with
  | .error e => .error (internalError (.store e) (str "bucket lookup failed"))
  | .ok entries =>
    let (page, token) := listPage entries (r.url.query.get (str "continuation-token")) maxBuckets
    .ok (.bucketList
      { owner := vr.tenant, buckets := page.map fun e => (e.name, e.createdAt.getD 0),
        continuationToken := token })

/-- The part of `handleRequest` for a request that names no bucket. -/
def handleService (vr : VerifiedRequest) : HandlerProg :=
  let d := UserPolicy.decide vr.userPolicy Action.listAllMyBuckets.name
  if r.method ≠ str "GET" then refuse methodNotAllowed
  else
    match ParamSet.check listBucketsParams r.url.query with
    | some e => refuse e
    | none =>
      if d.effect ≠ .allow then
        refuse (accessDenied.withCause (.denied
          (userPolicyReason vr.principal Action.listAllMyBuckets.name d)))
      else
        runOp g { method := r.method, operation := some .listBuckets, actions := [.listAllMyBuckets],
                  tenant := vr.tenant, user := vr.user } (.pure (listBuckets g r vr))

/-! ## With one -/

def invalidURI : S3Error :=
  { status := 400, code := str "InvalidURI", message := str "Couldn't parse the specified URI.",
    cause := .other }

def isMultipartForm : Bool :=
  dec.mediaType ((newSignedHeader r []).attr (str "Content-Type")) = some (str "multipart/form-data")

/-- The target of a browser upload; `none` for any other request. -/
def uploadTarget : Except S3Error (Option Target) :=
  if r.method = str "POST" ∧ isMultipartForm dec r then
    match requestTarget g.vhostSuffix r with
    | none => .error invalidURI
    | some t => .ok (if t.bucket ≠ [] ∧ t.key = [] then some t else none)
  else .ok none

/-- The part of `handleRequest` for a verified request that names a bucket. -/
def handleBucket (vr : VerifiedRequest) (t : Target) : HandlerProg :=
  match resolveBucket g vr t.bucket with
  | .error e => refuse e
  | .ok b =>
    match checkClient g b with
    | .error e => refuse e
    | .ok _ => handleTarget g dec r b vr t.key

/-- The part of `handleRequest` from `verifyRequest` on. -/
def handleSigned : HandlerProg :=
  match g.verifyRequest r with
  | .error e => refuse e
  | .ok (vr, header) =>
    let r := { r with header }
    match (newSignedHeader r vr.signedHeaders).checkKnownAmzHeaders g.checksums.knownHeader with
    | some e => refuse e
    | none =>
      match requestTarget g.vhostSuffix r with
      | none => refuse invalidURI
      | some t => if t.bucket = [] then handleService g r vr else handleBucket g dec r vr t

/-- `g.handleRequest(w, r)`; `form` is the body as a multipart reader sees it. -/
def handleRequest (form : Form) : HandlerProg :=
  if r.method = str "OPTIONS" then .pure (handlePreflight g r)
  else
    match uploadTarget g dec r with
    | .error e => refuse e
    | .ok (some t) => handlePostObject g dec r form t
    | .ok none => handleSigned g dec r

end Definitions

/-! ## Isolation -/

/-- What an input does on the front bucket `b`, by the actions of the operation it is
    sent for: the operation's own, and those its contents add.  A `DeleteObjects` input
    acts on each of its objects. -/
inductive ActsUnder (b : Bucket) (op : Op) (i : BackendInput) : Action → Bytes → Prop where
  | target {name : OpName} {o : Operation} {z : Authorization} (hname : op.operation = some name)
      (ho : lookup name = some o) (hz : z ∈ o.authorizations) (hon : z.on = .target)
      (hheader : z.header = none) :
      ActsUnder b op i (versioned z.action z.versionAction i.versionId.isSome) (frontResource b i)
  | tagging (h : i.tagging ≠ none) : ActsUnder b op i .putObjectTagging (frontResource b i)
  | retention (h : i.lock.mode ≠ [] ∨ i.lock.retainUntilDate ≠ none) :
      ActsUnder b op i .putObjectRetention (frontResource b i)
  | legalHold (h : i.lock.legalHoldStatus ≠ []) :
      ActsUnder b op i .putObjectLegalHold (frontResource b i)
  | bypass (h : i.bypassGovernance = true) (hobject : i.key ≠ none) :
      ActsUnder b op i .bypassGovernanceRetention (frontResource b i)
  | delete {o : ObjectIdentifier} (ho : o ∈ i.objects) :
      ActsUnder b op i (if o.versionId.isSome then .deleteObjectVersion else .deleteObject)
        (b.name ++ str "/" ++ o.key)
  | deleteBypass {o : ObjectIdentifier} (ho : o ∈ i.objects) (h : i.bypassGovernance = true) :
      ActsUnder b op i .bypassGovernanceRetention (b.name ++ str "/" ++ o.key)

/-- An operation has one action of its own on its target, and `DeleteObjects` none. -/
theorem target_unique : (∀ o ∈ operations, ∀ z ∈ o.authorizations, ∀ z' ∈ o.authorizations,
    z.on = .target → z.header = none → z'.on = .target → z'.header = none → z = z') ∧
    ∀ o ∈ operations, o.name = .deleteObjects → ∀ z ∈ o.authorizations, z.on ≠ .target := by
  decide +kernel

section Isolation

variable [Unicode] {g : Gateway} {dec : Decoding} {r : Request} {vr : VerifiedRequest} {b : Bucket}
  {op : Op} {i : BackendInput}

theorem authorized_of_mediated {hdr : SignedHeader} (h : Mediated g vr b hdr op i) {a : Action}
    {resource : Bytes} (hacts : ActsUnder b op i a resource) : authorize vr b a.name resource = none := by
  have hnone : ∀ o, o ∉ i.objects := by simp [h.objects]
  cases hacts with
  | @target name o z hname ho hz hon hheader =>
    obtain ⟨name', o', hname', -, ho', ⟨z', hz', hon', hheader', hauth⟩, -⟩ := h.entry
    obtain rfl : name' = name := Option.some.inj (hname'.symm.trans hname)
    obtain rfl : o' = o := Option.some.inj (ho'.symm.trans ho)
    have hmem := List.mem_of_find?_eq_some ho
    rw [target_unique.1 o' hmem z hz z' hz' hon hheader hon' hheader']
    exact hauth
  | tagging htagging => exact h.tagging htagging
  | retention hlock => exact h.retention hlock
  | legalHold hhold => exact h.legalHold hhold
  | bypass hbypass => exact h.bypass hbypass
  | delete ho => exact absurd ho (hnone _)
  | deleteBypass ho => exact absurd ho (hnone _)

/-- Everything a `DeleteObjects` input does was authorized, object by object. -/
theorem authorized_of_deletes (h : DeletesPermitted vr b op i) {a : Action} {resource : Bytes}
    (hacts : ActsUnder b op i a resource) : authorize vr b a.name resource = none := by
  obtain ⟨hop, d, rfl, -, -, hobjects⟩ := h
  cases hacts with
  | @target name o z hname ho hz hon hheader =>
    obtain rfl : OpName.deleteObjects = name := Option.some.inj (hop.symm.trans hname)
    have hmem := List.mem_of_find?_eq_some ho
    have hname : o.name = .deleteObjects := by simpa using List.find?_some ho
    exact absurd hon (target_unique.2 o hmem hname z hz)
  | tagging htagging => exact absurd rfl htagging
  | retention hlock => simp [BackendInput.lock] at hlock
  | legalHold hhold => exact absurd rfl hhold
  | bypass hbypass hobject => exact absurd rfl hobject
  | delete ho => exact (hobjects _ ho).1
  | deleteBypass ho hbypass => exact (hobjects _ ho).2 hbypass

theorem authorized_of_upload {t : Target} {c : OpCtx} {fields : Sigv4.Fields} {pp : Sigv4.PostPolicy}
    (hpost : PreparedPost g r t c fields pp) (hi : UploadsForm c fields i) {a : Action}
    {resource : Bytes} (hacts : ActsUnder c.cfg c.op i a resource) :
    authorize c.vr c.cfg a.name resource = none := by
  have hnone : ∀ o, o ∉ i.objects := by simp [hi.objects]
  have hres : frontResource c.cfg i = c.resource := by
    unfold frontResource OpCtx.resource
    rw [hi.key, if_neg hpost.key]
  -- the catalog has one entry for an upload, and a form carries no lock and no bypass
  cases hacts with
  | @target name o z hname ho hz hon hheader =>
    obtain rfl : OpName.postObject = name := Option.some.inj (hpost.operation.symm.trans hname)
    have hentry : ∀ o, lookup .postObject = some o → ∀ z ∈ o.authorizations, z.header = none →
        z.action = .putObject ∧ z.versionAction = none := by decide +kernel
    obtain ⟨haction, hversion⟩ := hentry o ho z hz hheader
    have hput : versioned z.action z.versionAction i.versionId.isSome = .putObject := by
      rw [haction, hversion]
      unfold versioned
      split <;> rfl
    rw [hput, hres]
    exact hpost.putObject
  | tagging htagging =>
    rw [hres]
    exact hpost.tagging (hi.tagging htagging)
  | retention hlock =>
    rw [hi.lock] at hlock
    simp at hlock
  | legalHold hhold =>
    rw [hi.lock] at hhold
    exact absurd rfl hhold
  | bypass hbypass =>
    rw [hi.bypass] at hbypass
    cases hbypass
  | delete ho => exact absurd ho (hnone _)
  | deleteBypass ho => exact absurd ho (hnone _)

/-- The policy of `b` has a matching Allow statement and no matching Deny statement. -/
def PolicyGrants (vr : VerifiedRequest) (b : Bucket) (a : Action) (resource : Bytes) : Prop :=
  ∃ p, b.policy = some p ∧
    (∃ st ∈ p.policy.statement,
      st.grants vr.principal a.name resource vr.requestContext = true) ∧
    ∀ st ∈ p.policy.statement, st.denies vr.principal a.name resource vr.requestContext = false

theorem policyGrants_of_authorized (htenant : b.tenant ≠ vr.tenant) {a : Action} {resource : Bytes}
    (h : authorize vr b a.name resource = none) : PolicyGrants vr b a resource := by
  obtain ⟨-, hbucket⟩ := (authorize_eq_none_iff vr b a.name resource).mp h
  rw [if_pos htenant] at hbucket
  obtain ⟨p, hp, hallow⟩ := hbucket
  exact ⟨p, hp, (p.decide_allow_iff _ _ _ _).mp hallow⟩

/-- The requester was verified, by signature or by the form. -/
def VerifiedAs (g : Gateway) (r : Request) (vr : VerifiedRequest) : Prop :=
  (∃ header, g.verifyRequest r = .ok (vr, header)) ∨
    ∃ fields pp, verifyPostRequest g r fields = .ok (vr, pp)

/-- What isolates a call: it goes to the backend bucket of the front bucket the request resolved to,
    for the operation that was recorded; on another tenant's bucket, everything it does is granted by
    that bucket's policy; and what a copy reads belongs to the requester's tenant. -/
structure Isolated (g : Gateway) (vr : VerifiedRequest) (bucket : Bytes) (b : Bucket) (op : Op)
    (call : BackendCall) : Prop where
  resolved : resolveBucket g vr bucket = .ok b
  client : call.client = b.backend
  target : call.input.bucket = b.backend.bucket
  operation : ∃ name, op.operation = some name ∧ Sends name call.input
  /-- so that what is granted is never nothing -/
  acts : ∃ a resource, ActsUnder b op call.input a resource
  granted : b.tenant ≠ vr.tenant →
    ∀ a resource, ActsUnder b op call.input a resource → PolicyGrants vr b a resource
  copies : ∀ copySource, call.input.copySource = some copySource →
    ∃ s src, src.tenant = vr.tenant ∧ g.store.getBucket vr.tenant s.bucket = .ok src ∧
      copySource = backendCopySource src.backend.bucket s

theorem acts_of_mediated {hdr : SignedHeader} (h : Mediated g vr b hdr op i) :
    ∃ a resource, ActsUnder b op i a resource := by
  obtain ⟨name, o, hname, -, ho, ⟨z, hz, hon, hheader, -⟩, -⟩ := h.entry
  exact ⟨_, _, .target hname ho hz hon hheader⟩

theorem acts_of_deletes (h : DeletesPermitted vr b op i) : ∃ a resource, ActsUnder b op i a resource := by
  obtain ⟨-, d, rfl, -, hsome, -⟩ := h
  obtain ⟨o, ho⟩ := List.exists_mem_of_ne_nil _ hsome
  exact ⟨_, _, .delete ho⟩

theorem isolated_of_dispatched {bucket key : Bytes} {rt : Route} {c : OpCtx} {call : BackendCall}
    (hresolved : resolveBucket g vr bucket = .ok b) (h : Dispatched g dec r b vr key rt c)
    (hrun : (rt.handle.run c).Issues call) : Isolated g vr bucket b c.op call := by
  obtain ⟨hclient, hcopies, hmediated⟩ := h.mediates hrun
  refine ⟨hresolved, hclient, ?_, ?_, ?_, fun htenant a resource hacts => ?_, ?_⟩
  · rcases hmediated with ⟨-, d, hd, hbucket, -⟩ | hmediated
    · rw [hd]
      exact hbucket
    · exact hmediated.bucket
  · rcases hmediated with ⟨hop, d, hd, -⟩ | hmediated
    · exact ⟨_, hop, hd ▸ .own rfl⟩
    · obtain ⟨name, _, hname, hsends, -⟩ := hmediated.entry
      exact ⟨name, hname, hsends⟩
  · exact hmediated.elim acts_of_deletes acts_of_mediated
  · apply policyGrants_of_authorized htenant
    rcases hmediated with hdeletes | hmediated
    · exact authorized_of_deletes hdeletes hacts
    · exact authorized_of_mediated hmediated hacts
  · intro copySource hsent
    obtain ⟨_, s, src, _, hreads⟩ := hcopies copySource hsent
    exact ⟨s, src, g.store.getBucket_tenant hreads.found, hreads.found, hreads.sent⟩

theorem handlePostObject_issues {form : Form} {t : Target} {call : BackendCall}
    (h : (handlePostObject g dec r form t).Issues call) :
    ∃ c fields pp, preparePost g dec r form t = .ok (c, fields, pp) ∧
      handlePostObject g dec r form t = runOp g c.op (postPutObject c fields pp) ∧
      (postPutObject c fields pp).Issues call := by
  unfold handlePostObject at h ⊢
  split at h
  · cases h
  · rename_i c fields pp hok
    exact ⟨c, fields, pp, hok, rfl, runOp_issues h⟩

theorem isolated_of_upload {form : Form} {t : Target} {c : OpCtx} {fields : Sigv4.Fields}
    {pp : Sigv4.PostPolicy} {call : BackendCall} (hok : preparePost g dec r form t = .ok (c, fields, pp))
    (hrun : (postPutObject c fields pp).Issues call) : Isolated g c.vr t.bucket c.cfg c.op call := by
  have hpost := preparePost_eq_ok hok
  obtain ⟨hclient, hi⟩ := Prog.eachCall_iff.mp (postPutObject_eachCall c fields pp) call hrun
  refine ⟨hpost.resolved, hclient, hi.bucket, ⟨_, hpost.operation, hi.operation⟩, ?_,
    fun htenant a resource hacts => ?_, fun copySource hsent => ?_⟩
  · obtain ⟨o, ho, z, hz, hon, hheader⟩ : ∃ o, lookup .postObject = some o ∧
        ∃ z ∈ o.authorizations, z.on = .target ∧ z.header = none := by decide +kernel
    exact ⟨_, _, .target hpost.operation ho hz hon hheader⟩
  · apply policyGrants_of_authorized htenant
    exact authorized_of_upload hpost hi hacts
  · rw [hi.copySource] at hsent
    cases hsent

omit [Unicode] in
theorem not_issues_refuse {e : S3Error} {call : BackendCall} : ¬(refuse e).Issues call := nofun

/-- A request on a bucket that gets to the backend has a bucket and a client for it. -/
theorem handleBucket_issues {t : Target} {call : BackendCall} (h : (handleBucket g dec r vr t).Issues call) :
    ∃ b u, resolveBucket g vr t.bucket = .ok b ∧ checkClient g b = .ok u ∧
      handleBucket g dec r vr t = handleTarget g dec r b vr t.key ∧
      (handleTarget g dec r b vr t.key).Issues call := by
  unfold handleBucket at h ⊢
  split at h
  · exact absurd h not_issues_refuse
  · rename_i b hresolved
    split at h
    · exact absurd h not_issues_refuse
    · rename_i u hclient
      exact ⟨b, u, hresolved, hclient, rfl, h⟩

theorem not_issues_handleService {call : BackendCall} : ¬(handleService g r vr).Issues call := by
  intro h
  unfold handleService at h
  dsimp only at h
  split at h
  · exact not_issues_refuse h
  · split at h
    · exact not_issues_refuse h
    · split at h
      · exact not_issues_refuse h
      · cases runOp_issues h

/-- A signed request that gets to the backend was verified and names a bucket. -/
theorem handleSigned_issues {call : BackendCall} (h : (handleSigned g dec r).Issues call) :
    ∃ vr header t, g.verifyRequest r = .ok (vr, header) ∧
      (newSignedHeader { r with header } vr.signedHeaders).checkKnownAmzHeaders g.checksums.knownHeader = none ∧
      requestTarget g.vhostSuffix { r with header } = some t ∧ t.bucket ≠ [] ∧
      handleSigned g dec r = handleBucket g dec { r with header } vr t ∧
      (handleBucket g dec { r with header } vr t).Issues call := by
  unfold handleSigned at h ⊢
  split at h
  · exact absurd h not_issues_refuse
  · rename_i vr header hverified
    dsimp only at h ⊢
    split at h
    · exact absurd h not_issues_refuse
    · rename_i hknown
      split at h
      · exact absurd h not_issues_refuse
      · rename_i t htarget
        split at h
        · exact absurd h not_issues_handleService
        · rename_i hbucket
          exact ⟨vr, header, t, hverified, hknown, htarget, hbucket, if_neg hbucket, h⟩

theorem requestTarget_of_upload {t : Target} (h : uploadTarget g dec r = .ok (some t)) :
    requestTarget g.vhostSuffix r = some t := by
  unfold uploadTarget at h
  split at h
  · split at h
    · cases h
    · rename_i t' htarget
      split at h
      · cases h
        exact htarget
      · cases h
  · cases h

/-- What runs for a request with a target once it is prepared: the upload of a form, or the handler of
    the route that was dispatched; `op` is what was recorded of it for the hooks. -/
inductive Prepared (g : Gateway) (dec : Decoding) (r : Request) (form : Form) :
    VerifiedRequest → Target → Bucket → Op → HandlerProg → Prop where
  | upload {t : Target} {c : OpCtx} {fields : Sigv4.Fields} {pp : Sigv4.PostPolicy}
      (htarget : uploadTarget g dec r = .ok (some t))
      (hok : preparePost g dec r form t = .ok (c, fields, pp)) :
      Prepared g dec r form c.vr t c.cfg c.op (postPutObject c fields pp)
  | dispatched {vr : VerifiedRequest} {header : Header} {t : Target} {b : Bucket} {rt : Route} {c : OpCtx}
      (hmethod : r.method ≠ str "OPTIONS") (hupload : uploadTarget g dec r = .ok none)
      (hverified : g.verifyRequest r = .ok (vr, header))
      (htarget : requestTarget g.vhostSuffix { r with header } = some t)
      (hresolved : resolveBucket g vr t.bucket = .ok b)
      (hdispatched : Dispatched g dec { r with header } b vr t.key rt c) :
      Prepared g dec r form vr t b c.op (rt.handle.run c)

theorem prepared_of_issues {form : Form} {call : BackendCall} (h : (handleRequest g dec r form).Issues call) :
    ∃ vr t b op run, Prepared g dec r form vr t b op run ∧ handleRequest g dec r form = runOp g op run ∧
      run.Issues call := by
  unfold handleRequest at h ⊢
  split at h
  · cases h
  · rename_i hmethod
    rw [if_neg hmethod]
    split at h
    · exact absurd h not_issues_refuse
    · rename_i t hupload
      obtain ⟨c, fields, pp, hok, heq, hrun⟩ := handlePostObject_issues h
      exact ⟨c.vr, t, c.cfg, c.op, _, .upload hupload hok, heq, hrun⟩
    · rename_i hupload
      obtain ⟨vr, header, t, hverified, -, htarget, -, hsigned, hbucket⟩ := handleSigned_issues h
      obtain ⟨b, _, hresolved, -, hbucketEq, hcall⟩ := handleBucket_issues hbucket
      obtain ⟨rt, c, hdispatched, hrun⟩ := dispatched_of_issues hcall
      refine ⟨vr, t, b, c.op, _, .dispatched hmethod hupload hverified htarget hresolved hdispatched, ?_, hrun⟩
      rw [← hdispatched.handleTarget_eq, ← hbucketEq]
      exact hsigned

namespace Prepared

variable {form : Form} {t : Target} {run : HandlerProg} {call : BackendCall}

theorem verified (h : Prepared g dec r form vr t b op run) : VerifiedAs g r vr := by
  cases h with
  | upload htarget hok => exact .inr ⟨_, _, (preparePost_eq_ok hok).verified⟩
  | dispatched hmethod hupload hverified => exact .inl ⟨_, hverified⟩

theorem target (h : Prepared g dec r form vr t b op run) : requestTarget g.vhostSuffix r = some t := by
  cases h with
  | upload htarget hok => exact requestTarget_of_upload htarget
  -- the target does not depend on the headers
  | dispatched hmethod hupload hverified htarget => exact htarget

theorem isolated (h : Prepared g dec r form vr t b op run) (hrun : run.Issues call) :
    Isolated g vr t.bucket b op call := by
  cases h with
  | upload htarget hok => exact isolated_of_upload hok hrun
  | dispatched hmethod hupload hverified htarget hresolved hdispatched =>
    exact isolated_of_dispatched hresolved hdispatched hrun

end Prepared

/-- Tenant isolation, for every request and every backend call it leads to. -/
theorem handleRequest_isolates_tenants (g : Gateway) (dec : Decoding) (r : Request) (form : Form)
    (call : BackendCall) (h : (handleRequest g dec r form).Issues call) :
    ∃ vr t b op run, VerifiedAs g r vr ∧ requestTarget g.vhostSuffix r = some t ∧
      Prepared g dec r form vr t b op run ∧ handleRequest g dec r form = runOp g op run ∧
      run.Issues call ∧ Isolated g vr t.bucket b op call := by
  obtain ⟨vr, t, b, op, run, hprepared, heq, hrun⟩ := prepared_of_issues h
  exact ⟨vr, t, b, op, run, hprepared.verified, hprepared.target, hprepared, heq, hrun,
    hprepared.isolated hrun⟩

end Isolation

/-! ### A request across tenants -/

/-- A gateway that takes every request for one of `ta/alice`. -/
def sharedGateway : Gateway :=
  { sharedDeleteCtx.g with verifyRequest := fun r => .ok (sharedDeleteCtx.vr, r.header) }

/-- `DELETE /b/tmp/1`, on a bucket of `tb`. -/
def crossTenantDelete : Request :=
  ⟨str "DELETE", str "/b/tmp/1", { path := str "/b/tmp/1" }, str "h", [], 0, []⟩

theorem crossTenantDelete_isolated :
    let _ := asciiTables
    let prog := handleRequest sharedGateway sharedDeleteCtx.dec crossTenantDelete (.ok [])
    ∃ call, prog.Issues call ∧ ∃ vr t b op run, VerifiedAs sharedGateway crossTenantDelete vr ∧
      requestTarget [] crossTenantDelete = some t ∧
      Prepared sharedGateway sharedDeleteCtx.dec crossTenantDelete (.ok []) vr t b op run ∧
      prog = runOp sharedGateway op run ∧ run.Issues call ∧
      Isolated sharedGateway vr t.bucket b op call := by
  intro _ prog
  have hfirst : prog.firstCall.isSome = true := by decide +kernel
  obtain ⟨call, hcall⟩ := Option.isSome_iff_exists.mp hfirst
  have hissues := Prog.issues_of_firstCall hcall
  exact ⟨call, hissues, handleRequest_isolates_tenants sharedGateway sharedDeleteCtx.dec
    crossTenantDelete (.ok []) call hissues⟩

end S3Gateway.S3gw
