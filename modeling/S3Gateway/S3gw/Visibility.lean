import S3Gateway.S3gw.Serve
import S3Gateway.Library.TwoRuns

/-! # What a tenant can tell of another's buckets

A bucket whose policy does not mention the requester might as well not be there: with it
and without it, every response is the same.  And the gate that sees to this costs nobody a
grant: what `authorize` would allow is always reached. -/

namespace S3Gateway.S3gw

open Go S3err S3op Fallible Interaction TwoRuns

/-! ## Stores with a bucket and without it -/

/-- The store has the bucket: by its name, which is no other's, and for its tenant. -/
structure Store.Defines (s : Store) (b : Bucket) : Prop where
  byName : s.getBucketByName b.name = .ok b
  owned : s.getBucket b.tenant b.name = .ok b
  unique : ∀ tenant, tenant ≠ b.tenant → s.getBucket tenant b.name = .error .notFound

def Store.remove (s : Store) (b : Bucket) : Store where
  getBucket tenant bucket :=
    if tenant = b.tenant ∧ bucket = b.name then .error .notFound else s.getBucket tenant bucket
  getBucketByName bucket := if bucket = b.name then .error .notFound else s.getBucketByName bucket
  listBuckets tenant :=
    if tenant = b.tenant then (s.listBuckets tenant).map (·.filter (·.name ≠ b.name)) else s.listBuckets tenant
  getBucket_tenant h := by
    split at h
    · cases h
    · exact s.getBucket_tenant h

def Gateway.withStore (g : Gateway) (s : Store) : Gateway := { g with store := s }

def OpCtx.withStore (c : OpCtx) (s : Store) : OpCtx := { c with g := c.g.withStore s }

/-- What the client is shown of an error: all but its cause. -/
def SeenAlike (e e' : S3Error) : Prop := { e with cause := .none } = { e' with cause := .none }

instance : Std.Refl SeenAlike := ⟨fun _ => rfl⟩

theorem seenAlike_withCause (e : S3Error) (c c' : Cause) : SeenAlike (e.withCause c) (e.withCause c') := rfl

theorem writeError_seen {e e' : S3Error} (h : SeenAlike e e') (header : Header) (r : Request) (requestID : Bytes) :
    writeError header r e requestID = writeError header r e' requestID := by
  have hcause : ∀ e, writeError header r e requestID = writeError header r { e with cause := .none } requestID :=
    fun _ => rfl
  rw [hcause e, hcause e', h]

section Hidden

variable [Unicode]

/-! ## Operations do not read the store -/

section WithStore

variable (c : OpCtx) (s : Store)

omit [Unicode] in
theorem deleteLoop_withStore (a : DeleteAuthorizers) (objects : List DeleteRequestObject) (p : DeleteProgress) :
    deleteLoop (c.withStore s) a objects p = deleteLoop c a objects p := by
  induction objects generalizing p with
  | nil => rfl
  | cons o rest ih =>
    simp only [deleteLoop, ih]
    rfl

theorem deleteObjects_withStore : deleteObjects (c.withStore s) = deleteObjects c := by
  unfold deleteObjects
  simp only [deleteLoop_withStore]
  rfl

theorem Handler.run_withStore (h : Handler) : h.run (c.withStore s) = h.run c := by
  cases h with
  | deleteObjects => exact deleteObjects_withStore c s
  | _ => rfl

theorem authorizeHeaders_withStore (hdr : SignedHeader) (has : List HeaderAction) (actions : List Action) :
    authorizeHeaders (c.withStore s) hdr has actions = authorizeHeaders c hdr has actions := by
  induction has generalizing actions with
  | nil => rfl
  | cons ha rest ih =>
    simp only [authorizeHeaders, ih]
    rfl

theorem authorizeRoute_withStore (rt : Route) (hdr : SignedHeader) (version : Bool) :
    authorizeRoute (c.withStore s) rt hdr version = authorizeRoute c rt hdr version := by
  unfold authorizeRoute
  simp only [authorizeHeaders_withStore]
  rfl

theorem resolveCopySource_withStore {s : Store}
    (hown : s.getBucket c.vr.tenant = c.g.store.getBucket c.vr.tenant) (a : Action) (av : Option Action) :
    resolveCopySource (c.withStore s) a av = resolveCopySource c a av := by
  have hlookup : (c.withStore s).g.store.getBucket (c.withStore s).vr.tenant = c.g.store.getBucket c.vr.tenant := hown
  unfold resolveCopySource
  rw [hlookup]
  rfl

theorem checkRoute_withStore {s : Store}
    (hown : s.getBucket c.vr.tenant = c.g.store.getBucket c.vr.tenant) (rt : Route) :
    checkRoute (c.withStore s) rt = (·.withStore s) <$> checkRoute c rt := by
  have hcopy : ∀ actions, copyVariant (c.withStore s) rt actions = copyVariant c rt actions := by
    intro actions
    unfold copyVariant
    simp only [resolveCopySource_withStore c hown]
    rfl
  unfold checkRoute
  simp only [authorizeRoute_withStore, hcopy, map_bind]
  rfl

theorem dispatch_withStore {s : Store}
    (hown : s.getBucket c.vr.tenant = c.g.store.getBucket c.vr.tenant) (routes : List Route) :
    dispatch (c.withStore s) routes = dispatch c routes := by
  have hhdr : (c.withStore s).hdr = c.hdr := rfl
  have hquery : (c.withStore s).query = c.query := rfl
  unfold dispatch
  rw [hhdr, hquery]
  split
  · rfl
  · split
    · rfl
    · rename_i rt _
      rw [checkRoute_withStore c hown]
      cases checkRoute c rt with
      | error e => rfl
      | ok c' => exact congrArg (runOp c'.g c'.op) (Handler.run_withStore c' s rt.handle)

end WithStore

theorem handleTarget_withStore {g : Gateway} {s : Store} (dec : Decoding) (r : Request) (b : Bucket)
    (vr : VerifiedRequest) (hown : s.getBucket vr.tenant = g.store.getBucket vr.tenant) (key : Bytes) :
    handleTarget (g.withStore s) dec r b vr key = handleTarget g dec r b vr key := by
  have hdispatch : ∀ key, dispatch (opCtx (g.withStore s) dec r b vr key) = dispatch (opCtx g dec r b vr key) :=
    fun key => funext (dispatch_withStore (opCtx g dec r b vr key) hown)
  unfold handleTarget handleBucketRequest handleObjectRequest
  rw [hdispatch, hdispatch]

/-! ## With the bucket and without it -/

section Remove

variable {g : Gateway} {dec : Decoding} {r : Request} {form : Form} {b : Bucket} {vr : VerifiedRequest}

/-- The bucket is another tenant's, and its policy does not mention the requester. -/
structure HiddenFrom (g : Gateway) (b : Bucket) (vr : VerifiedRequest) : Prop where
  defined : g.store.Defines b
  foreign : b.tenant ≠ vr.tenant
  silent : b.policy.any (·.policy.mentionsPrincipal vr.principal) = false

namespace HiddenFrom

omit [Unicode] in
theorem own (h : HiddenFrom g b vr) : (g.store.remove b).getBucket vr.tenant = g.store.getBucket vr.tenant := by
  funext bucket
  exact if_neg fun hboth => h.foreign hboth.1.symm

omit [Unicode] in
/-- The gate answers for the hidden bucket as it does for one that is not there. -/
theorem resolveBucket (h : HiddenFrom g b vr) (bucket : Bytes) :
    Outcomes SeenAlike Eq (resolveBucket g vr bucket) (resolveBucket (g.withStore (g.store.remove b)) vr bucket) := by
  have hown : (g.withStore (g.store.remove b)).store.getBucket vr.tenant = g.store.getBucket vr.tenant := h.own
  unfold S3gw.resolveBucket
  rw [hown]
  by_cases hbucket : bucket = b.name
  · subst hbucket
    have hgone : (g.withStore (g.store.remove b)).store.getBucketByName b.name = .error .notFound := if_pos rfl
    rw [h.defined.unique vr.tenant h.foreign.symm, h.defined.byName, hgone]
    simp only [h.silent, Bool.false_eq_true, if_false]
    exact .error (seenAlike_withCause _ _ _)
  · have hother : (g.withStore (g.store.remove b)).store.getBucketByName bucket = g.store.getBucketByName bucket :=
      if_neg hbucket
    rw [hother]
    exact .refl _

omit [Unicode] in
theorem reachBucket (h : HiddenFrom g b vr) (bucket : Bytes) :
    Outcomes SeenAlike Eq (reachBucket g vr bucket) (reachBucket (g.withStore (g.store.remove b)) vr bucket) := by
  refine (h.resolveBucket bucket).bind fun found _ hfound => ?_
  subst hfound
  exact .step fun _ _ => .ok rfl

theorem handleBucket (h : HiddenFrom g b vr) (t : Target) :
    Runs (Outcomes SeenAlike Eq) (handleBucket g dec r vr t)
      (handleBucket (g.withStore (g.store.remove b)) dec r vr t) := by
  have hgate := h.resolveBucket t.bucket
  unfold S3gw.handleBucket
  generalize S3gw.resolveBucket g vr t.bucket = found,
    S3gw.resolveBucket (g.withStore _) vr t.bucket = found' at hgate ⊢
  cases hgate with
  | error hseen => exact .pure (.error hseen)
  | @ok b' b'' hsame =>
    subst hsame
    have hclient : checkClient (g.withStore (g.store.remove b)) b' = checkClient g b' := rfl
    dsimp only
    rw [hclient, handleTarget_withStore dec r b' vr h.own]
    exact .refl _

theorem handleService (h : HiddenFrom g b vr) :
    handleService (g.withStore (g.store.remove b)) r vr = handleService g r vr := by
  have hlist : (g.withStore (g.store.remove b)).store.listBuckets vr.tenant = g.store.listBuckets vr.tenant :=
    if_neg h.foreign.symm
  have hbuckets : listBuckets (g.withStore (g.store.remove b)) r vr = listBuckets g r vr := by
    unfold listBuckets
    rw [hlist]
  unfold S3gw.handleService
  rw [hbuckets]
  rfl

end HiddenFrom

/-- A request is one of the requester whom the gateway verifies it for. -/
inductive RequestedBy (g : Gateway) (dec : Decoding) (r : Request) (form : Form) : VerifiedRequest → Prop where
  | signed {vr : VerifiedRequest} {header : Header} (hupload : uploadTarget g dec r = .ok none)
      (hverified : g.verifyRequest r = .ok (vr, header)) : RequestedBy g dec r form vr
  | upload {t : Target} {fields : Sigv4.Fields} {key : Bytes} {vr : VerifiedRequest} {pp : Sigv4.PostPolicy}
      (hupload : uploadTarget g dec r = .ok (some t)) (hform : postForm form t.bucket = .ok (fields, key))
      (hverified : verifyPostRequest g r fields = .ok (vr, pp)) : RequestedBy g dec r form vr

section Upload

variable {t : Target} (hidden : ∀ fields key vr pp, postForm form t.bucket = .ok (fields, key) →
  verifyPostRequest g r fields = .ok (vr, pp) → HiddenFrom g b vr)

include hidden

theorem preparePost_hidden (dec : Decoding) :
    Outcomes SeenAlike (fun p p' => p' = (p.1.withStore (g.store.remove b), p.2))
      (preparePost g dec r form t) (preparePost (g.withStore (g.store.remove b)) dec r form t) := by
  unfold preparePost
  -- everything before the gate is the same computation
  refine .step fun _ _ => .step fun _ _ => .step fun ⟨fields, key⟩ hform => ?_
  refine .step fun ⟨vr, pp⟩ hverified => .step fun _ _ => ?_
  refine ((hidden _ _ _ _ hform hverified).resolveBucket t.bucket).bind fun found _ hfound => ?_
  subst hfound
  refine .step fun _ _ => .step fun _ _ => .step fun _ _ => ?_
  refine .step fun _ _ => ?_
  -- the store is not among what the route's actions are authorized by
  let c : OpCtx := { opCtx g dec r found vr key with hdr := ⟨[], []⟩ }
  have hroute : authorizeRoute (c.withStore (g.store.remove b)) postObjectRoute (fieldHeader fields) false =
      authorizeRoute c postObjectRoute (fieldHeader fields) false := authorizeRoute_withStore c _ _ _ _
  refine Outcomes.bind (R := Eq) ?_ fun actions _ hactions => ?_
  · exact hroute ▸ .refl _
  · subst hactions
    exact .ok rfl

theorem handlePostObject_hidden :
    Runs (Outcomes SeenAlike Eq) (handlePostObject g dec r form t)
      (handlePostObject (g.withStore (g.store.remove b)) dec r form t) := by
  have hprepared := preparePost_hidden hidden dec
  unfold handlePostObject
  generalize preparePost g dec r form t = x, preparePost (g.withStore _) dec r form t = y at hprepared ⊢
  cases hprepared with
  | error hseen => exact .pure (.error hseen)
  | ok hcontext =>
    subst hcontext
    exact .refl _

theorem reachPost_hidden :
    Outcomes SeenAlike Eq (reachPost g r form t) (reachPost (g.withStore (g.store.remove b)) r form t) := by
  unfold reachPost
  refine .step fun _ _ => .step fun _ _ => .step fun _ hform => ?_
  refine .step fun _ hverified => .step fun _ _ => ?_
  exact (hidden _ _ _ _ hform hverified).reachBucket t.bucket

end Upload

section Signed

variable (hidden : ∀ vr header, g.verifyRequest r = .ok (vr, header) → HiddenFrom g b vr)

include hidden

theorem handleSigned_hidden :
    Runs (Outcomes SeenAlike Eq) (handleSigned g dec r) (handleSigned (g.withStore (g.store.remove b)) dec r) := by
  have hverify : (g.withStore (g.store.remove b)).verifyRequest r = g.verifyRequest r := rfl
  have hchecksums : (g.withStore (g.store.remove b)).checksums = g.checksums := rfl
  have hsuffix : (g.withStore (g.store.remove b)).vhostSuffix = g.vhostSuffix := rfl
  unfold handleSigned
  rw [hverify, hchecksums, hsuffix]
  split
  · exact .refl _
  · rename_i vr header hverified
    have h := hidden vr header hverified
    dsimp only
    split
    · exact .refl _
    · split
      · exact .refl _
      · rename_i t _
        by_cases hbucket : t.bucket = []
        · rw [if_pos hbucket, if_pos hbucket, h.handleService]
          exact .refl _
        · rw [if_neg hbucket, if_neg hbucket]
          exact h.handleBucket t

theorem reachSigned_hidden :
    Outcomes SeenAlike Eq (reachSigned g r) (reachSigned (g.withStore (g.store.remove b)) r) := by
  unfold reachSigned
  refine .step fun _ hverified => .step fun _ _ => .step fun t _ => ?_
  split
  · exact .refl _
  · refine ((hidden _ _ hverified).reachBucket t.bucket).bind fun found _ hfound => ?_
    subst hfound
    exact .ok rfl

end Signed

section Request

variable (hmethod : r.method ≠ str "OPTIONS") (hidden : ∀ vr, RequestedBy g dec r form vr → HiddenFrom g b vr)

include hmethod hidden

theorem handleRequest_hidden : Runs (Outcomes SeenAlike Eq) (handleRequest g dec r form)
    (handleRequest (g.withStore (g.store.remove b)) dec r form) := by
  have hupload : uploadTarget (g.withStore (g.store.remove b)) dec r = uploadTarget g dec r := rfl
  unfold handleRequest
  rw [if_neg hmethod, if_neg hmethod, hupload]
  split
  · exact .refl _
  · rename_i t htarget
    exact handlePostObject_hidden fun fields key vr pp hform hverified =>
      hidden vr (.upload htarget hform hverified)
  · rename_i htarget
    exact handleSigned_hidden fun vr header hverified => hidden vr (.signed htarget hverified)

theorem reached_hidden : Outcomes SeenAlike Eq (reached g dec r form)
    (reached (g.withStore (g.store.remove b)) dec r form) := by
  unfold reached
  rw [if_neg hmethod, if_neg hmethod]
  refine .step fun target htarget => ?_
  cases target with
  | none => exact reachSigned_hidden fun vr header hverified => hidden vr (.signed htarget hverified)
  | some t =>
    refine (reachPost_hidden fun fields key vr pp hform hverified =>
      hidden vr (.upload htarget hform hverified)).bind fun found _ hfound => ?_
    subst hfound
    exact .ok rfl

theorem serve_hidden (requestID : Bytes) : serve g dec r form requestID =
    serve (g.withStore (g.store.remove b)) dec r form requestID := by
  have hreached := reached_hidden hmethod hidden
  have hheader : responseHeader g dec r form requestID =
      responseHeader (g.withStore (g.store.remove b)) dec r form requestID := by
    unfold responseHeader
    generalize reached g dec r form = x, reached (g.withStore _) dec r form = y at hreached ⊢
    cases hreached with
    | error _ => rfl
    | ok hsame => rw [hsame]
  have hbucket : (reached g dec r form).toOption =
      (reached (g.withStore (g.store.remove b)) dec r form).toOption := by
    generalize reached g dec r form = x, reached (g.withStore _) dec r form = y at hreached ⊢
    cases hreached with
    | error _ => rfl
    | ok hsame => rw [hsame]
  refine (handleRequest_hidden hmethod hidden).map_eq fun result result' hresult => ?_
  unfold report
  rw [hheader, hbucket]
  cases hresult with
  | error hseen => exact writeError_seen hseen _ _ _
  | ok hsame => rw [hsame]

end Request

end Remove

/-! ## What is granted is reached -/

theorem mentionsPrincipal_of_grants {p : Policy.ParsedPolicy} {st : Policy.Statement}
    (hst : st ∈ p.policy.statement) {principal action resource : Bytes} {rc : Policy.RequestContext}
    (h : st.grants principal action resource rc = true) : p.policy.mentionsPrincipal principal = true := by
  simp only [Policy.Statement.grants, Policy.Statement.covers, Policy.Statement.applies, Bool.and_eq_true,
    beq_iff_eq] at h
  obtain ⟨hallow, ⟨⟨hnamed, -⟩, -⟩, -⟩ := h
  refine List.any_eq_true.mpr ⟨st, hst, ?_⟩
  unfold Policy.Statement.matchPrincipal at hnamed
  cases hprincipal : st.principal with
  | some pr =>
    rw [hprincipal] at hnamed
    simpa [hallow] using hnamed
  | none =>
    -- only a statement that denies may name everyone but some
    rw [hprincipal] at hnamed
    cases hnot : st.notPrincipal with
    | none =>
      rw [hnot] at hnamed
      cases hnamed
    | some np =>
      have hdeny := (p.wellFormed st hst).exclusion (by rw [hnot]; rfl)
      exact absurd (hallow.symm.trans hdeny) Policy.effectAllow_ne_effectDeny

theorem resolveBucket_of_authorized {g : Gateway} {b : Bucket} {vr : VerifiedRequest} {action resource : Bytes}
    {sourceIP : Addr} (hdefined : g.store.Defines b)
    (h : authorize { vr with sourceIP } b action resource = none) : resolveBucket g vr b.name = .ok b := by
  unfold resolveBucket
  by_cases htenant : b.tenant = vr.tenant
  · rw [← htenant, hdefined.owned]
  · obtain ⟨-, hbucket⟩ := (authorize_eq_none_iff _ _ _ _).mp h
    rw [if_pos htenant] at hbucket
    obtain ⟨p, hp, hallow⟩ := hbucket
    obtain ⟨⟨st, hst, hgrants⟩, -⟩ := (p.decide_allow_iff _ _ _ _).mp hallow
    have hmentions : b.policy.any (·.policy.mentionsPrincipal vr.principal) = true := by
      rw [hp]
      exact mentionsPrincipal_of_grants hst hgrants
    rw [hdefined.unique vr.tenant (Ne.symm htenant), hdefined.byName]
    simp only [hmentions, if_true]

/-- Buckets cannot be probed across tenants, and the gate costs nobody a grant. -/
theorem foreign_bucket_visibility (g : Gateway) (dec : Decoding) (r : Request) (form : Form)
    (requestID : Bytes) (b : Bucket) (tenant user : Bytes) (hdefined : g.store.Defines b)
    (hforeign : b.tenant ≠ tenant) :
    (b.policy.any (·.policy.mentionsPrincipal (tenant ++ str "/" ++ user)) = false →
      (∀ vr, RequestedBy g dec r form vr → vr.tenant = tenant ∧ vr.user = user) →
      r.method ≠ str "OPTIONS" →
      serve g dec r form requestID = serve (g.withStore (g.store.remove b)) dec r form requestID) ∧
    ∀ vr : VerifiedRequest, vr.tenant = tenant → vr.user = user → ∀ action resource sourceIP,
      authorize { vr with sourceIP } b action resource = none → resolveBucket g vr b.name = .ok b := by
  constructor
  · intro hsilent hrequester hmethod
    refine serve_hidden hmethod (fun vr hvr => ?_) requestID
    obtain ⟨rfl, rfl⟩ := hrequester vr hvr
    exact ⟨hdefined, hforeign, hsilent⟩
  · intro vr _ _ action resource sourceIP hallowed
    exact resolveBucket_of_authorized hdefined hallowed

end Hidden

/-! ### A bucket shared with one tenant and hidden from another -/

def sharedStore : Store where
  getBucket tenant bucket :=
    if tenant = sharedBucket.tenant ∧ bucket = sharedBucket.name then .ok sharedBucket else .error .notFound
  getBucketByName bucket := if bucket = sharedBucket.name then .ok sharedBucket else .error .notFound
  listBuckets _ := .ok []
  getBucket_tenant h := by
    split at h
    · rename_i hbucket
      cases h
      exact hbucket.1.symm
    · cases h

theorem sharedStore_defines : sharedStore.Defines sharedBucket where
  byName := by simp [sharedStore]
  owned := by simp [sharedStore]
  unique _ htenant := if_neg fun hboth => htenant hboth.1

/-- A gateway that takes every request for one of `tc/carol`. -/
def carolGateway : Gateway :=
  { sharedGateway with
    store := sharedStore
    verifyRequest := fun r => .ok (⟨str "tc", str "carol", none, .zero, str "UNSIGNED-PAYLOAD", []⟩, r.header) }

/-- `tc/carol` gets the same answer with the bucket and without it; `ta/alice`, who may delete
    in it, reaches it. -/
theorem sharedBucket_visibility :
    let _ := asciiTables
    serve carolGateway sharedDeleteCtx.dec crossTenantDelete (.ok []) (str "1") =
        serve (carolGateway.withStore (sharedStore.remove sharedBucket)) sharedDeleteCtx.dec crossTenantDelete
          (.ok []) (str "1") ∧
      resolveBucket carolGateway sharedDeleteCtx.vr sharedBucket.name = .ok sharedBucket := by
  intro _
  have hcarol : ∀ vr, RequestedBy carolGateway sharedDeleteCtx.dec crossTenantDelete (.ok []) vr →
      vr.tenant = str "tc" ∧ vr.user = str "carol" := by
    intro vr hvr
    cases hvr with
    | signed hupload hverified =>
      cases hverified
      exact ⟨rfl, rfl⟩
    | upload hupload hform hverified => cases hform
  have hsilent : sharedBucket.policy.any
      (·.policy.mentionsPrincipal (str "tc" ++ str "/" ++ str "carol")) = false := by decide +kernel
  have halice : authorize sharedDeleteCtx.vr sharedBucket (str "s3:DeleteObject") (str "b/tmp/1") = none := by
    decide +kernel
  have hvisible := fun tenant user => foreign_bucket_visibility carolGateway sharedDeleteCtx.dec crossTenantDelete
    (.ok []) (str "1") sharedBucket tenant user sharedStore_defines
  exact ⟨(hvisible (str "tc") (str "carol") (by decide)).1 hsilent hcarol (by decide),
    (hvisible (str "ta") (str "alice") (by decide)).2 sharedDeleteCtx.vr rfl rfl _ _ _ halice⟩

end S3Gateway.S3gw
