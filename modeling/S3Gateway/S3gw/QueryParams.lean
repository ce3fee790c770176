import S3Gateway.S3gw.Visibility

/-! # Query parameters that reach a handler

Each operation has the set of query parameters it accepts, and a route refuses a request with any
other before its handler runs.  The set is optional in a route, and without one nothing is checked:
that is meant for the handlers that refuse every request anyway. -/

namespace S3Gateway.S3gw

open Go S3err S3op Interaction Policy

/-! ## The handler a request is given to -/

def Handler.isRefusal : Handler → Bool
  | .rejectACL | .notImplemented _ | .unknownOperation _ => true
  | _ => false

/-- What a signed request can get to: the listing of one's buckets, or the handler of a route. -/
inductive Reached where
  | listBuckets
  | route (rt : Route)

/-- The parameters the operation accepts.  One that declares none accepts none. -/
def Reached.params : Reached → ParamSet
  | listBuckets => listBucketsParams
  | route rt => rt.params.getD noParams

def Reached.isRefusal : Reached → Bool
  | listBuckets => false
  | route rt => rt.handle.isRefusal

section Reaches

variable [Unicode] (g : Gateway) (dec : Decoding) (r : Request)

/-- A key `check` never refuses: the operation hint of the SDK, and what presigned requests carry. -/
def isExempt (k : Bytes) : Bool := k == str "x-id" || hasPrefix (toLower k) (str "x-amz-")

/-- The request is signed, verified, and names a target. -/
structure Admitted (vr : VerifiedRequest) (header : Header) (t : Target) : Prop where
  notPreflight : r.method ≠ str "OPTIONS"
  notUpload : uploadTarget g dec r = .ok none
  verified : g.verifyRequest r = .ok (vr, header)
  known : (newSignedHeader { r with header } vr.signedHeaders).checkKnownAmzHeaders g.checksums.knownHeader = none
  target : requestTarget g.vhostSuffix { r with header } = some t

/-- The operation `handleRequest` records for a listing of one's buckets. -/
def listBucketsOp (vr : VerifiedRequest) : Op :=
  { method := r.method, operation := some .listBuckets, actions := [.listAllMyBuckets], tenant := vr.tenant, user := vr.user }

/-- The request passes every check up to the hooks, and the first of them, the authorizer, admits its
    operation: the handler runs. -/
inductive Reaches : Reached → Op → HandlerProg → Prop where
  | service {vr : VerifiedRequest} {header : Header} {t : Target} (hadmitted : Admitted g dec r vr header t)
      (hbucket : t.bucket = []) (hmethod : r.method = str "GET")
      (hparams : ParamSet.check listBucketsParams r.url.query = none)
      (hallowed : (UserPolicy.decide vr.userPolicy Action.listAllMyBuckets.name).effect = .allow)
      (hauthorizer : g.authorizer.bind (· (listBucketsOp r vr)) = none) :
      Reaches .listBuckets (listBucketsOp r vr) (.pure (listBuckets g { r with header } vr))
  | dispatched {vr : VerifiedRequest} {header : Header} {t : Target} {b : Bucket} {rt : Route} {c : OpCtx}
      (hadmitted : Admitted g dec r vr header t) (hbucket : t.bucket ≠ [])
      (hresolved : resolveBucket g vr t.bucket = .ok b) (hclient : checkClient g b = .ok ())
      (hdispatched : Dispatched g dec { r with header } b vr t.key rt c)
      (hauthorizer : g.authorizer.bind (· c.op) = none) :
      Reaches (.route rt) c.op (rt.handle.run c)

end Reaches

section Reaching

variable [Unicode] {g : Gateway} {dec : Decoding} {r : Request}

theorem Admitted.handleRequest_eq {vr : VerifiedRequest} {header : Header} {t : Target} (h : Admitted g dec r vr header t)
    (form : Form) :
    handleRequest g dec r form =
      if t.bucket = [] then handleService g { r with header } vr else handleBucket g dec { r with header } vr t := by
  unfold handleRequest handleSigned
  rw [if_neg h.notPreflight, h.notUpload, h.verified]
  dsimp only
  rw [h.known, h.target]

theorem checkRoute_params {c c' : OpCtx} {rt : Route} (h : checkRoute c rt = .ok c') :
    rt.params.bind (·.check c.query) = none := by
  obtain ⟨_, hparams, -⟩ := Fallible.bind_eq_ok.mp h
  exact failWith_eq_ok.mp hparams

theorem Reaches.runs {x : Reached} {op : Op} {run : HandlerProg} (h : Reaches g dec r x op run) (form : Form) :
    handleRequest g dec r form = runOp g op run := by
  cases h with
  | service hadmitted hbucket hmethod hparams hallowed =>
    rw [hadmitted.handleRequest_eq form, if_pos hbucket]
    unfold handleService
    dsimp only
    rw [if_neg (not_not.mpr hmethod), hparams]
    dsimp only
    rw [if_neg (not_not.mpr hallowed)]
    rfl
  | dispatched hadmitted hbucket hresolved hclient hdispatched =>
    rw [hadmitted.handleRequest_eq form, if_neg hbucket]
    unfold handleBucket
    rw [hresolved]
    dsimp only
    rw [hclient]
    exact hdispatched.handleTarget_eq

omit [Unicode] in
theorem runOp_eq_refuse_or {op : Op} (run : HandlerProg) :
    (∃ e, runOp g op run = refuse e) ∨ g.authorizer.bind (· op) = none := by
  unfold runOp
  cases g.authorizer.bind (· op) with
  | some e => exact .inl ⟨e, rfl⟩
  | none => exact .inr rfl

variable (g r) in
theorem handleService_cases (vr : VerifiedRequest) :
    (∃ e, handleService g r vr = refuse e) ∨
      r.method = str "GET" ∧ ParamSet.check listBucketsParams r.url.query = none ∧
        (UserPolicy.decide vr.userPolicy Action.listAllMyBuckets.name).effect = .allow ∧
        handleService g r vr = runOp g (listBucketsOp r vr) (.pure (listBuckets g r vr)) := by
  unfold handleService
  dsimp only
  split
  · exact .inl ⟨_, rfl⟩
  · rename_i hmethod
    split
    · exact .inl ⟨_, rfl⟩
    · rename_i hparams
      split
      · exact .inl ⟨_, rfl⟩
      · rename_i hallowed
        exact .inr ⟨not_not.mp hmethod, hparams, not_not.mp hallowed, rfl⟩

variable (g dec r) in
theorem handleBucket_cases (vr : VerifiedRequest) (t : Target) :
    (∃ e, handleBucket g dec r vr t = refuse e) ∨
      ∃ b, resolveBucket g vr t.bucket = .ok b ∧ checkClient g b = .ok () ∧
        handleBucket g dec r vr t = handleTarget g dec r b vr t.key := by
  unfold handleBucket
  split
  · exact .inl ⟨_, rfl⟩
  · rename_i b hresolved
    split
    · exact .inl ⟨_, rfl⟩
    · rename_i u hclient
      exact .inr ⟨b, hresolved, hclient, rfl⟩

theorem Admitted.reaches_or_refused {vr : VerifiedRequest} {header : Header} {t : Target}
    (h : Admitted g dec r vr header t) (form : Form) :
    (∃ e, handleRequest g dec r form = refuse e) ∨ ∃ x op run, Reaches g dec r x op run := by
  rw [h.handleRequest_eq form]
  by_cases hbucket : t.bucket = []
  · rw [if_pos hbucket]
    rcases handleService_cases g { r with header } vr with hrefused | ⟨hmethod, hparams, hallowed, hservice⟩
    · exact .inl hrefused
    · rw [hservice]
      exact (runOp_eq_refuse_or _).imp_right fun hauthorizer =>
        ⟨_, _, _, .service h hbucket hmethod hparams hallowed hauthorizer⟩
  · rw [if_neg hbucket]
    rcases handleBucket_cases g dec { r with header } vr t with hrefused | ⟨b, hresolved, hclient, heq⟩
    · exact .inl hrefused
    · rw [heq]
      rcases refused_or_dispatched g dec { r with header } b vr t.key with hrefused | ⟨rt, c, hdispatched⟩
      · exact .inl hrefused
      · rw [hdispatched.handleTarget_eq]
        exact (runOp_eq_refuse_or _).imp_right fun hauthorizer =>
          ⟨_, _, _, .dispatched h hbucket hresolved hclient hdispatched hauthorizer⟩

/-! ## The parameters of the tables -/

theorem ParamSet.check_eq_none_iff {p : ParamSet} {query : Values} :
    p.check query = none ↔ ∀ k ∈ query.keys, isExempt k = false → k ∈ p := by
  rw [ParamSet.check, Option.map_eq_none_iff, List.find?_eq_none]
  refine forall_congr' fun k => imp_congr_right fun _ => ?_
  cases hid : k == str "x-id" <;> cases hamz : hasPrefix (toLower k) (str "x-amz-") <;>
    simp_all [isExempt]

omit [Unicode] in
/-- Among the handlers that do something, only that of `HEAD` on a bucket declares no parameters. -/
theorem routes_params :
    (∀ entry ∈ bucketRoutes, ∀ rt ∈ entry.2,
      (rt.params = none → rt.handle.isRefusal = true ∨ entry.1 = str "HEAD") ∧
        (entry.1 = str "HEAD" → rt.params = none)) ∧
    ∀ entry ∈ objectRoutes, ∀ rt ∈ entry.2, rt.params = none → rt.handle.isRefusal = true := by
  decide +kernel

theorem accepted_of_checkRoute {c c' : OpCtx} {rt : Route} {p : ParamSet} (hparams : rt.params = some p)
    (h : checkRoute c rt = .ok c') : ∀ k ∈ c.query.keys, isExempt k = false → k ∈ (Reached.route rt).params := by
  have hcheck := checkRoute_params h
  rw [hparams, Option.bind_some] at hcheck
  rw [Reached.params, hparams]
  exact ParamSet.check_eq_none_iff.mp hcheck

/-- A supported operation is reached only with query parameters it accepts, except the `HEAD` of a
    bucket, which is reached with any. -/
theorem reaches_accepted_iff {x : Reached} {op : Op} {run : HandlerProg} (h : Reaches g dec r x op run)
    (hsupported : x.isRefusal = false) :
    (∀ k ∈ r.url.query.keys, isExempt k = false → k ∈ x.params) ↔
      ¬(r.method = str "HEAD" ∧ (∃ t, requestTarget g.vhostSuffix r = some t ∧ t.bucket ≠ [] ∧ t.key = []) ∧
        ∃ k ∈ r.url.query.keys, isExempt k = false) := by
  cases h with
  | service hadmitted hbucket hmethod hparams =>
    refine iff_of_true (ParamSet.check_eq_none_iff.mp hparams) fun ⟨hhead, _⟩ => ?_
    rw [hmethod] at hhead
    exact absurd hhead (by decide)
  | @dispatched vr header t b rt c hadmitted hbucket hresolved hclient hdispatched =>
    obtain ⟨⟨routes, hroutes, hmatch⟩, -, hchecked⟩ := hdispatched
    have hmem := List.mem_of_find?_eq_some hmatch
    have htarget : requestTarget g.vhostSuffix r = some t := hadmitted.target
    unfold routesOf at hroutes
    split at hroutes
    · rename_i hkey
      obtain ⟨hnone, hhead⟩ := routes_params.1 _ (mem_of_lookup hroutes) rt hmem
      cases hparams : rt.params with
      | some p =>
        refine iff_of_true (accepted_of_checkRoute hparams hchecked) fun ⟨hmethod, _⟩ => ?_
        rw [hhead hmethod] at hparams
        cases hparams
      | none =>
        -- nothing is declared and nothing was checked
        have hmethod : r.method = str "HEAD" := (hnone hparams).resolve_left fun hrefusal => by
          rw [Reached.isRefusal, hrefusal] at hsupported
          cases hsupported
        simp only [Reached.params, hparams, Option.getD_none, noParams, List.not_mem_nil, imp_false, hmethod, true_and]
        constructor
        · rintro hall ⟨-, k, hk, hexempt⟩
          exact hall k hk hexempt
        · intro hnot k hk hexempt
          exact hnot ⟨⟨t, htarget, hbucket, hkey⟩, k, hk, hexempt⟩
    · rename_i hkey
      cases hparams : rt.params with
      | some p =>
        refine iff_of_true (accepted_of_checkRoute hparams hchecked) fun ⟨_, ⟨t', htarget', _, hkey'⟩, _⟩ => ?_
        rw [htarget] at htarget'
        cases htarget'
        exact hkey hkey'
      | none =>
        have hrefusal := routes_params.2 _ (mem_of_lookup hroutes) rt hmem hparams
        rw [Reached.isRefusal, hrefusal] at hsupported
        cases hsupported

end Reaching

/-! ### A bucket's `HEAD` -/

/-- A gateway that takes every request for one of the owner of `sharedBucket`. -/
def ownerGateway : Gateway :=
  { carolGateway with verifyRequest := fun r => .ok (ownRequester, r.header) }

/-- `method /b?query`. -/
def bucketRequest (method query : Bytes) : Request :=
  ⟨method, str "/b", { path := str "/b", rawQuery := query }, str "h", [], 0, []⟩

/-- `HEAD /b?acl` runs `HeadBucket`, which knows no `acl`. -/
theorem headBucket_ignores_acl :
    let _ := asciiTables
    ∃ rt op run, Reaches ownerGateway sharedDeleteCtx.dec (bucketRequest (str "HEAD") (str "acl")) (.route rt) op run ∧
      rt.handle = .headBucket ∧ str "acl" ∈ (bucketRequest (str "HEAD") (str "acl")).url.query.keys ∧
      isExempt (str "acl") = false ∧ str "acl" ∉ (Reached.route rt).params := by
  intro _
  have hadmitted : Admitted ownerGateway sharedDeleteCtx.dec (bucketRequest (str "HEAD") (str "acl")) ownRequester []
      { bucket := str "b", key := [] } :=
    ⟨by decide, by rfl, by rfl, by decide +kernel, by decide +kernel⟩
  exact ⟨_, _, _, .dispatched hadmitted (by decide) (by rfl) (by rfl) ⟨⟨_, by rfl, by rfl⟩, by rfl, by rfl⟩ (by rfl),
    by rfl, by decide +kernel, by decide +kernel, List.not_mem_nil⟩

/-- With nothing but the hint of the SDK nothing is ignored. -/
theorem headBucket_accepts_hint :
    let _ := asciiTables
    let r := bucketRequest (str "HEAD") (str "x-id=HeadBucket")
    ∃ rt op run, Reaches ownerGateway sharedDeleteCtx.dec r (.route rt) op run ∧ rt.handle = .headBucket ∧
      ∀ k ∈ r.url.query.keys, isExempt k = false → k ∈ (Reached.route rt).params := by
  intro _ r
  have hadmitted : Admitted ownerGateway sharedDeleteCtx.dec r ownRequester [] { bucket := str "b", key := [] } :=
    ⟨by decide, by rfl, by rfl, by decide +kernel, by decide +kernel⟩
  have hreaches : ∃ rt op run, Reaches ownerGateway sharedDeleteCtx.dec r (.route rt) op run ∧ rt.handle = .headBucket :=
    ⟨_, _, _, .dispatched hadmitted (by decide) (by rfl) (by rfl) ⟨⟨_, by rfl, by rfl⟩, by rfl, by rfl⟩ (by rfl), by rfl⟩
  obtain ⟨rt, op, run, hreached, hhandle⟩ := hreaches
  have hexempt : r.url.query.keys.all isExempt = true := by decide +kernel
  refine ⟨rt, op, run, hreached, hhandle, (reaches_accepted_iff hreached ?_).mpr ?_⟩
  · rw [Reached.isRefusal, hhandle]
    rfl
  · rintro ⟨-, -, k, hk, hnot⟩
    rw [List.all_eq_true.mp hexempt k hk] at hnot
    cases hnot

end S3Gateway.S3gw
