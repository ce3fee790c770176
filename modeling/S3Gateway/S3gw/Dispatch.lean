import S3Gateway.S3gw.CopySource
import S3Gateway.S3gw.Routes

/-! # Dispatch

`dispatch` picks the route, runs its checks, authorizes its actions and hands the
operation to the hooks and the handler.  The checks are driven by the catalog, the
values by the handlers; `dispatch_mediates` is where the two meet. -/

namespace S3Gateway.S3gw

open Go S3err S3op Interaction

section Definitions

variable [Unicode]

/-- `g.runOp(ctx, op, c, run)`: the authorizer, then the interceptors around `run`,
    the first registered outermost. -/
def runOp (g : Gateway) (op : Op) (run : HandlerProg) : HandlerProg :=
  match g.authorizer.bind (· op) with
  | some e => refuse e
  | none => g.interceptors.foldr (fun i next => (i op).subst fun _ => next) run

variable (c : OpCtx)

/-- The loop of `authorizeRoute` over the header actions. -/
def authorizeHeaders (hdr : SignedHeader) :
    List HeaderAction → List Action → Except S3Error (List Action)
  | [], actions => .ok actions
  | ha :: rest, actions =>
    if !ha.present.holds hdr || actions.contains ha.action then authorizeHeaders hdr rest actions
    else
      match c.authorize ha.action with
      | some e => .error e
      | none => authorizeHeaders hdr rest (actions ++ [ha.action])

def authorizeRoute (rt : Route) (hdr : SignedHeader) (version : Bool) :
    Except S3Error (List Action) :=
  match rt.action with
  | none => authorizeHeaders c hdr rt.hdrActions []
  | some action =>
    let action := versioned action rt.versionAction version
    match c.authorize action with
    | some e => .error e
    | none => authorizeHeaders c hdr rt.hdrActions [action]

def objectRequest (withAttrs : Bool) : Option OpRequest :=
  if !withAttrs then none
  else
    let req : OpRequest :=
      { sse := c.signed hdrSSE, sseKMSKeyID := c.signed hdrSSEKMSKeyID,
        storageClass := c.signed hdrStorageClass, metadata := c.hdr.amzMeta }
    if req.empty then none else some req

/-- The operation that runs, its copy source and its actions: those of the copy
    variant when the request has a copy source and the route a variant. -/
def copyVariant (rt : Route) (actions : List Action) :
    Except S3Error (Option OpName × Bytes × List Action) :=
  match rt.copy, rt.copyAction with
  | some copy, some copyAction =>
    if c.signed hdrCopySource ≠ [] then do
      let (src, action) ← resolveCopySource c copyAction rt.copyVersionAction
      .ok (some copy, src, actions ++ [action])
    else .ok (rt.name, c.copySource, actions)
  -- a bound route has its copy action exactly when it has a copy variant
  | _, _ => .ok (rt.name, c.copySource, actions)

/-- The checks of the matching route; the context its handler runs in. -/
def checkRoute (rt : Route) : Except S3Error OpCtx := do
  failWith (rt.params.bind (·.check c.query))
  failWith (if rt.aclHdr then checkACLHeader c.hdr else none)
  let actions ← authorizeRoute c rt c.hdr (c.query.get qpVersionID != [])
  let (name, copySource, actions) ← copyVariant c rt actions
  .ok { c with
    copySource
    op := { method := c.r.method, operation := name, actions, tenant := c.vr.tenant,
            user := c.vr.user, bucket := c.cfg.name, bucketOwner := c.cfg.tenant, key := c.key,
            request := objectRequest c rt.attrs } }

def dispatch (routes : List Route) : HandlerProg :=
  match (checkSSEC c.hdr).or (checkSSE c.hdr) with
  | some e => refuse e
  | none =>
    match routes.find? (·.match_.holds c.query) with
    | none => refuse (notImplemented (str "this operation"))
    | some rt =>
      match checkRoute c rt with
      | .error e => refuse e
      | .ok c' => runOp c'.g c'.op (rt.handle.run c')

/-- The context a bucket's handler is given before its operation is known. -/
def opCtx (g : Gateway) (dec : Decoding) (r : Request) (b : Bucket) (vr : VerifiedRequest)
    (key : Bytes) : OpCtx :=
  { g, dec, r, cfg := b, vr, hdr := newSignedHeader r vr.signedHeaders, query := r.url.query,
    query_eq := rfl, key, copySource := [],
    op := { method := r.method, operation := none, actions := [], tenant := vr.tenant,
            user := vr.user } }

def handleBucketRequest (g : Gateway) (dec : Decoding) (r : Request) (b : Bucket)
    (vr : VerifiedRequest) : HandlerProg :=
  match bucketRoutes.lookup r.method with
  | none => refuse (notImplemented (str "this bucket operation"))
  | some routes => dispatch (opCtx g dec r b vr []) routes

def methodNotAllowed : S3Error :=
  { status := 405, code := str "MethodNotAllowed",
    message := str "The specified method is not allowed against this resource." }

def handleObjectRequest (g : Gateway) (dec : Decoding) (r : Request) (b : Bucket)
    (vr : VerifiedRequest) (key : Bytes) : HandlerProg :=
  match objectRoutes.lookup r.method with
  | none => refuse methodNotAllowed
  | some routes => dispatch (opCtx g dec r b vr key) routes

/-- The end of `handleRequest`, once bucket and key are known. -/
def handleTarget (g : Gateway) (dec : Decoding) (r : Request) (b : Bucket)
    (vr : VerifiedRequest) (key : Bytes) : HandlerProg :=
  if key = [] then handleBucketRequest g dec r b vr else handleObjectRequest g dec r b vr key

end Definitions

def routesOf (method key : Bytes) : Option (List Route) :=
  if key = [] then bucketRoutes.lookup method else objectRoutes.lookup method

/-! ## The hooks add no call -/

theorem runOp_issues {g : Gateway} {op : Op} {run : HandlerProg} {call : BackendCall}
    (h : (runOp g op run).Issues call) : run.Issues call := by
  suffices hall : (runOp g op run).EachCall run.Issues from Prog.eachCall_iff.mp hall call h
  unfold runOp
  split
  · trivial
  · induction g.interceptors with
    | nil => exact Prog.eachCall_iff.mpr fun _ h => h
    | cons i rest ih => exact Prog.EachCall.subst (fun _ => ih) (i op)

/-! ## What a route authorizes -/

section Authorization

variable [Unicode] {c : OpCtx}

/-- One pass over the header actions: every action it adds was authorized, belongs
    to a header that is present, and none is added twice. -/
theorem authorizeHeaders_eq_ok {hdr : SignedHeader} {has : List HeaderAction}
    {actions actions' : List Action} (h : authorizeHeaders c hdr has actions = .ok actions')
    (hnodup : actions.Nodup) :
    actions'.Nodup ∧ (∀ a ∈ actions', a ∈ actions ∨ c.authorize a = none) ∧
      ∀ a, a ∈ actions' ↔ a ∈ actions ∨ ∃ ha ∈ has, ha.present.holds hdr = true ∧ ha.action = a := by
  induction has generalizing actions with
  | nil =>
    cases h
    exact ⟨hnodup, fun a ha => .inl ha, fun a => by simp⟩
  | cons ha rest ih =>
    rw [authorizeHeaders] at h
    split at h
    · rename_i hskip
      obtain ⟨hn, hauth, hmem⟩ := ih h hnodup
      refine ⟨hn, hauth, fun a => ?_⟩
      rw [hmem a]
      -- a skipped action is absent or already in the list
      simp only [Bool.or_eq_true, Bool.not_eq_true', List.contains_iff_mem] at hskip
      constructor
      · rintro (hin | ⟨x, hx, hp, he⟩)
        · exact .inl hin
        · exact .inr ⟨x, List.mem_cons_of_mem _ hx, hp, he⟩
      · rintro (hin | ⟨x, hx, hp, he⟩)
        · exact .inl hin
        · rcases List.mem_cons.mp hx with rfl | hx
          · rcases hskip with habs | hin
            · rw [hp] at habs
              cases habs
            · exact .inl (he ▸ hin)
          · exact .inr ⟨x, hx, hp, he⟩
    · rename_i htake
      simp only [Bool.or_eq_true, Bool.not_eq_true', List.contains_iff_mem, not_or,
        Bool.not_eq_false] at htake
      obtain ⟨hpresent, hfresh⟩ := htake
      split at h
      · cases h
      · rename_i hok
        have hnodup' : (actions ++ [ha.action]).Nodup := by
          rw [List.nodup_append]
          refine ⟨hnodup, List.nodup_singleton _, ?_⟩
          rintro a hin b hb rfl
          obtain rfl := List.mem_singleton.mp hb
          exact hfresh hin
        obtain ⟨hn, hauth, hmem⟩ := ih h hnodup'
        refine ⟨hn, fun a hin => ?_, fun a => ?_⟩
        · rcases hauth a hin with hold | hnew
          · rcases List.mem_append.mp hold with hold | hadded
            · exact .inl hold
            · obtain rfl := List.mem_singleton.mp hadded
              exact .inr hok
          · exact .inr hnew
        · rw [hmem a, List.mem_append, List.mem_singleton, List.exists_mem_cons_iff]
          constructor
          · rintro ((hin | rfl) | hrest)
            · exact .inl hin
            · exact .inr (.inl ⟨hpresent, rfl⟩)
            · exact .inr (.inr hrest)
          · rintro (hin | ⟨-, rfl⟩ | hrest)
            · exact .inl (.inl hin)
            · exact .inl (.inr rfl)
            · exact .inr hrest

/-- What `authorizeRoute` returns: the route's actions, each authorized, each once. -/
theorem authorizeRoute_eq_ok {rt : Route} {hdr : SignedHeader} {version : Bool}
    {actions : List Action} (h : authorizeRoute c rt hdr version = .ok actions) :
    actions.Nodup ∧ (∀ a ∈ actions, c.authorize a = none) ∧
      ∀ a, a ∈ actions ↔
        (∃ act, rt.action = some act ∧ versioned act rt.versionAction version = a) ∨
          ∃ ha ∈ rt.hdrActions, ha.present.holds hdr = true ∧ ha.action = a := by
  unfold authorizeRoute at h
  split at h
  · rename_i hnone
    obtain ⟨hn, hauth, hmem⟩ := authorizeHeaders_eq_ok h List.nodup_nil
    refine ⟨hn, fun a ha => (hauth a ha).resolve_left List.not_mem_nil, fun a => ?_⟩
    rw [hmem a]
    simp [hnone]
  · rename_i act hact
    dsimp only at h
    split at h
    · cases h
    · rename_i hok
      obtain ⟨hn, hauth, hmem⟩ := authorizeHeaders_eq_ok h (List.nodup_singleton _)
      refine ⟨hn, fun a ha => ?_, fun a => ?_⟩
      · rcases hauth a ha with hfirst | hrest
        · rw [List.mem_singleton.mp hfirst]
          exact hok
        · exact hrest
      · rw [hmem a, List.mem_singleton, hact]
        simp only [Option.some.injEq, exists_eq_left', @eq_comm _ a]

/-! ## Complete mediation -/

/-- The resource of the front bucket `b` an input addresses. -/
def frontResource (b : Bucket) (i : BackendInput) : Bytes :=
  match i.key with
  | none => b.name
  | some key => b.name ++ str "/" ++ key

/-- The action a catalog authorization asks for, given the headers and whether a
    version is named. -/
def Requires (hdr : SignedHeader) (version : Bool) (z : Authorization) (a : Action) : Prop :=
  match z.header with
  | none => versioned z.action z.versionAction version = a
  | some h => z.action = a ∧ ∃ p, presenceOf h = some p ∧ p.holds hdr = true

/-- The catalog authorization `z` was checked, as action `a`, for the request behind
    the input `i`. -/
def Checked (g : Gateway) (vr : VerifiedRequest) (b : Bucket) (hdr : SignedHeader)
    (i : BackendInput) (z : Authorization) (a : Action) : Prop :=
  match z.on with
  | .target =>
    Requires hdr i.versionId.isSome z a ∧ authorize vr b a.name (frontResource b i) = none
  | .copySource => ∃ copySource s src, i.copySource = some copySource ∧
      ReadsOwn g vr (hdr.signedValue hdrCopySource) copySource s src a ∧
      a = versioned z.action z.versionAction s.version
  | .eachKey => False

/-- A backend input on the request's own target, in view of what was authorized. -/
structure Mediated (g : Gateway) (vr : VerifiedRequest) (b : Bucket) (hdr : SignedHeader) (op : Op)
    (i : BackendInput) : Prop where
  bucket : i.bucket = b.backend.bucket
  key : i.key = present op.key
  objects : i.objects = []
  entry : ∃ name o, op.operation = some name ∧ Sends name i ∧ lookup name = some o ∧
    (∃ z ∈ o.authorizations, z.on = .target ∧ z.header = none ∧
      authorize vr b (versioned z.action z.versionAction i.versionId.isSome).name
        (frontResource b i) = none) ∧
    ∀ a, a ∈ op.actions ↔ ∃ z ∈ o.authorizations, Checked g vr b hdr i z a
  actions_nodup : op.actions.Nodup
  tagging : i.tagging ≠ none →
    authorize vr b Action.putObjectTagging.name (frontResource b i) = none
  retention : i.lock.mode ≠ [] ∨ i.lock.retainUntilDate ≠ none →
    authorize vr b Action.putObjectRetention.name (frontResource b i) = none
  legalHold : i.lock.legalHoldStatus ≠ [] →
    authorize vr b Action.putObjectLegalHold.name (frontResource b i) = none
  bypass : i.bypassGovernance = true →
    authorize vr b Action.bypassGovernanceRetention.name (frontResource b i) = none

/-! ### Passing the checks -/

/-- What `checkRoute` did on the way to the context `c'`. -/
structure Passed (c : OpCtx) (rt : Route) (c' : OpCtx) (actions : List Action) : Prop where
  route : authorizeRoute c rt c.hdr (c.query.get qpVersionID != []) = .ok actions
  variant : copyVariant c rt actions = .ok (c'.op.operation, c'.copySource, c'.op.actions)
  context : c' = { c with copySource := c'.copySource, op := c'.op }
  key : c'.op.key = c.key

theorem checkRoute_eq_ok {rt : Route} {c' : OpCtx} (h : checkRoute c rt = .ok c') :
    ∃ actions, Passed c rt c' actions := by
  obtain ⟨_, -, h⟩ := Fallible.bind_eq_ok.mp h
  obtain ⟨_, -, h⟩ := Fallible.bind_eq_ok.mp h
  obtain ⟨actions, hroute, h⟩ := Fallible.bind_eq_ok.mp h
  obtain ⟨⟨name, copySource, actions'⟩, hvariant, h⟩ := Fallible.bind_eq_ok.mp h
  cases h
  exact ⟨actions, hroute, hvariant, rfl, rfl⟩

/-- Either the route's own operation runs, or its copy variant on a source of the
    requester's. -/
theorem copyVariant_eq_ok {rt : Route} {actions actions' : List Action} {name : Option OpName}
    {copySource : Bytes} (h : copyVariant c rt actions = .ok (name, copySource, actions')) :
    (name = rt.name ∧ copySource = c.copySource ∧ actions' = actions) ∨
      ∃ copy copyAction s src action, rt.copy = some copy ∧ rt.copyAction = some copyAction ∧
        name = some copy ∧ actions' = actions ++ [action] ∧
        ReadsOwn c.g c.vr (c.signed hdrCopySource) copySource s src action ∧
        action = versioned copyAction rt.copyVersionAction s.version := by
  unfold copyVariant at h
  split at h
  · rename_i copy copyAction hcopy hact
    split at h
    · obtain ⟨⟨source, action⟩, hsource, h⟩ := Fallible.bind_eq_ok.mp h
      cases h
      obtain ⟨s, src, hreads, haction⟩ := resolveCopySource_eq_ok c copyAction _ hsource
      exact .inr ⟨copy, copyAction, s, src, action, hcopy, hact, rfl, rfl, hreads, haction⟩
    · cases h
      exact .inl ⟨rfl, rfl, rfl⟩
  · cases h
    exact .inl ⟨rfl, rfl, rfl⟩

/-! ### Assembling -/

section Passing

variable {rt : Route} {c' : OpCtx} {actions : List Action} {object : Bool} {f : Forwards}
  {i : BackendInput}

omit [Unicode] in
theorem resource_eq (hkey : object = true ↔ c.key ≠ []) (hobject : f.object = object)
    (hi : i.key = if f.object then some c.key else none) :
    c.resource = frontResource c.cfg i ∧ i.key = present c.key := by
  unfold OpCtx.resource frontResource present
  rw [hi, hobject]
  cases object with
  | true => simp [hkey.mp rfl]
  | false =>
    have hnil : c.key = [] := by
      by_contra hne
      exact Bool.noConfusion (hkey.mpr hne)
    simp [hnil]

omit [Unicode] in
/-- The version dispatch saw in the query is the one the input carries, for an
    operation that tells versions apart. -/
theorem versioned_eq (hversion : rt.versionAction.isSome = true → f.version = true)
    (hi : i.versionId = if f.version then c.versionId else none) (act : Action) :
    versioned act rt.versionAction (c.query.get qpVersionID != []) =
      versioned act rt.versionAction i.versionId.isSome := by
  cases hv : rt.versionAction with
  | none => simp [versioned]
  | some v =>
    have hf : f.version = true := hversion (by rw [hv]; rfl)
    have hflag : i.versionId.isSome = (c.query.get qpVersionID != []) := by
      rw [hi, if_pos hf, OpCtx.versionId, OpCtx.param, ← c.query_eq, present]
      by_cases hq : c.query.get qpVersionID = []
      · simp [hq]
      · simp [hq]
    rw [hflag]

theorem mem_actions_iff {op : Operation} (hbound : rt.Bound op) {hdr : SignedHeader} {version : Bool}
    (h : authorizeRoute c rt hdr version = .ok actions) (a : Action) :
    a ∈ actions ↔ ∃ z ∈ onTarget op, Requires hdr version z a := by
  obtain ⟨-, -, hmem⟩ := authorizeRoute_eq_ok h
  rw [hmem a]
  constructor
  · rintro (⟨act, hact, rfl⟩ | ⟨ha, hin, hpresent, rfl⟩)
    · obtain ⟨z, hz, hnone, rfl, hv⟩ := (hbound.action act rt.versionAction).mp ⟨hact, rfl⟩
      refine ⟨z, hz, ?_⟩
      simp only [Requires, hnone, hv]
    · obtain ⟨z, hz, haction, hp⟩ := (hbound.hdrActions ha).mp hin
      obtain ⟨header, hheader, hp⟩ := Option.bind_eq_some_iff.mp hp
      refine ⟨z, hz, ?_⟩
      simp only [Requires, hheader]
      exact ⟨haction, ha.present, hp, hpresent⟩
  · rintro ⟨z, hz, hreq⟩
    cases hheader : z.header with
    | none =>
      simp only [Requires, hheader] at hreq
      obtain ⟨hact, hv⟩ := (hbound.action z.action z.versionAction).mpr ⟨z, hz, hheader, rfl, rfl⟩
      exact .inl ⟨z.action, hact, by rw [hv, hreq]⟩
    | some header =>
      simp only [Requires, hheader] at hreq
      obtain ⟨rfl, p, hp, hpresent⟩ := hreq
      have hin := (hbound.hdrActions ⟨p, z.action⟩).mpr
        ⟨z, hz, rfl, by rw [hheader, Option.bind_some, hp]⟩
      exact .inr ⟨_, hin, hpresent, rfl⟩

theorem mem_actions_iff_checked {op op' : Operation} (hbound : rt.Bound op)
    (htarget : onTarget op' = onTarget op)
    (hroute : authorizeRoute c rt c.hdr (c.query.get qpVersionID != []) = .ok actions)
    (hres : c.resource = frontResource c.cfg i)
    (hversion : ∀ act, versioned act rt.versionAction (c.query.get qpVersionID != []) =
      versioned act rt.versionAction i.versionId.isSome) (a : Action) :
    a ∈ actions ↔
      ∃ z ∈ op'.authorizations, z.on = .target ∧ Checked c.g c.vr c.cfg c.hdr i z a := by
  obtain ⟨-, hauth, -⟩ := authorizeRoute_eq_ok hroute
  -- the query and the input name a version alike, as far as an action depends on it
  have hrequires : ∀ z ∈ onTarget op, (Requires c.hdr (c.query.get qpVersionID != []) z a ↔
      Requires c.hdr i.versionId.isSome z a) := by
    intro z hz
    unfold Requires
    cases hheader : z.header with
    | none =>
      obtain ⟨-, hv⟩ := (hbound.action z.action z.versionAction).mpr ⟨z, hz, hheader, rfl, rfl⟩
      simp only [← hv, hversion]
    | some header => exact Iff.rfl
  have hmemTarget : ∀ z, z ∈ onTarget op ↔ z ∈ op'.authorizations ∧ z.on = .target := by
    intro z
    rw [← htarget, onTarget, List.mem_filter, decide_eq_true_eq]
  have hmem := mem_actions_iff hbound hroute a
  constructor
  · intro ha
    obtain ⟨z, hz, hreq⟩ := hmem.mp ha
    obtain ⟨hin, hon⟩ := (hmemTarget z).mp hz
    refine ⟨z, hin, hon, ?_⟩
    simp only [Checked, hon]
    refine ⟨(hrequires z hz).mp hreq, ?_⟩
    rw [← hres]
    exact hauth a ha
  · rintro ⟨z, hin, hon, hchecked⟩
    simp only [Checked, hon] at hchecked
    have hz := (hmemTarget z).mpr ⟨hin, hon⟩
    exact hmem.mpr ⟨z, hz, (hrequires z hz).mpr hchecked.1⟩

theorem authorized_of_header {hdr : SignedHeader} {version : Bool}
    (hroute : authorizeRoute c rt hdr version = .ok actions) {ha : HeaderAction}
    (hin : ha ∈ rt.hdrActions) (hpresent : ha.present.holds hdr = true) :
    c.authorize ha.action = none := by
  obtain ⟨-, hauth, hmem⟩ := authorizeRoute_eq_ok hroute
  exact hauth _ ((hmem _).mpr (.inr ⟨ha, hin, hpresent, rfl⟩))

/-- The operation record lists, once each, the actions its catalog entry asks for in
    view of the input; on the target these are the route's. -/
def Recorded (c : OpCtx) (rt : Route) (op : Op) (i : BackendInput) : Prop :=
  op.actions.Nodup ∧ ∃ name o, op.operation = some name ∧ Sends name i ∧ lookup name = some o ∧
    (∃ entry, rt.Bound entry ∧ onTarget o = onTarget entry) ∧
    ∀ a, a ∈ op.actions ↔ ∃ z ∈ o.authorizations, Checked c.g c.vr c.cfg c.hdr i z a

/-- The route's own operation: no copy source is sent, so none was to be checked. -/
theorem recorded_of_own {name : OpName} {op : Operation} (hname : rt.name = some name)
    (hop : lookup name = some op) (hbound : rt.Bound op)
    (hroute : authorizeRoute c rt c.hdr (c.query.get qpVersionID != []) = .ok actions)
    (hres : c.resource = frontResource c.cfg i)
    (hversion : ∀ act, versioned act rt.versionAction (c.query.get qpVersionID != []) =
      versioned act rt.versionAction i.versionId.isSome)
    (hsends : Sends name i) (hnone : i.copySource = none) (hop' : c'.op.operation = rt.name)
    (hactions : c'.op.actions = actions) : Recorded c rt c'.op i := by
  obtain ⟨hnodup, -, -⟩ := authorizeRoute_eq_ok hroute
  refine ⟨hactions ▸ hnodup, name, op, hop'.trans hname, hsends, hop, ⟨op, hbound, rfl⟩, fun a => ?_⟩
  rw [hactions, mem_actions_iff_checked hbound rfl hroute hres hversion a]
  constructor
  · rintro ⟨z, hz, -, hchecked⟩
    exact ⟨z, hz, hchecked⟩
  · rintro ⟨z, hz, hchecked⟩
    cases hon : z.on with
    | target => exact ⟨z, hz, hon, hchecked⟩
    | copySource =>
      simp only [Checked, hon, hnone] at hchecked
      obtain ⟨_, _, _, hsome, -⟩ := hchecked
      cases hsome
    | eachKey =>
      simp only [Checked, hon] at hchecked

theorem copyAction_not_mem {copyAction action : Action} {version source : Bool}
    (hroute : authorizeRoute c rt c.hdr version = .ok actions) (hcopy : rt.copyAction = some copyAction)
    (haction : action = versioned copyAction rt.copyVersionAction source)
    (hfresh : ∀ a ∈ rt.copyAction.toList ++ rt.copyVersionAction.toList,
      a ∉ rt.action.toList ++ rt.versionAction.toList ++ rt.hdrActions.map (·.action)) :
    action ∉ actions := by
  intro hin
  have hsource : action ∈ rt.copyAction.toList ++ rt.copyVersionAction.toList := by
    rw [haction, hcopy]
    unfold versioned
    cases rt.copyVersionAction <;> cases source <;> simp
  refine hfresh action hsource ?_
  obtain ⟨-, -, hmem⟩ := authorizeRoute_eq_ok hroute
  rcases (hmem action).mp hin with ⟨act, hact, rfl⟩ | ⟨ha, hha, -, rfl⟩
  · rw [hact]
    unfold versioned
    cases rt.versionAction <;> cases version <;> simp
  · exact List.mem_append_right _ (List.mem_map.mpr ⟨ha, hha, rfl⟩)

/-- The copy variant: its entry asks for the target's actions and, on the source, for
    the one action that was authorized there. -/
theorem recorded_of_copy {op cp : Operation} {copy : OpName} {z₀ : Authorization} {s : CopySource}
    {src : Bucket} {action : Action} (hbound : rt.Bound op) (hcp : lookup copy = some cp)
    (htarget : onTarget cp = onTarget op) (hz₀ : cp.authorizations.filter (·.on = .copySource) = [z₀])
    (hroute : authorizeRoute c rt c.hdr (c.query.get qpVersionID != []) = .ok actions)
    (hres : c.resource = frontResource c.cfg i)
    (hversion : ∀ act, versioned act rt.versionAction (c.query.get qpVersionID != []) =
      versioned act rt.versionAction i.versionId.isSome)
    (hnew : action ∉ actions) (hsends : Sends copy i) (hsent : i.copySource = some c'.copySource)
    (hreads : ReadsOwn c.g c.vr (c.signed hdrCopySource) c'.copySource s src action)
    (haction : action = versioned z₀.action z₀.versionAction s.version)
    (hop' : c'.op.operation = some copy) (hactions : c'.op.actions = actions ++ [action]) :
    Recorded c rt c'.op i := by
  obtain ⟨hnodup, -, -⟩ := authorizeRoute_eq_ok hroute
  have hz₀mem : ∀ z, (z ∈ cp.authorizations ∧ z.on = .copySource) ↔ z = z₀ := by
    intro z
    have hfilter : z ∈ cp.authorizations.filter (·.on = .copySource) ↔ z ∈ [z₀] := by rw [hz₀]
    simpa using hfilter
  refine ⟨?_, copy, cp, hop', hsends, hcp, ⟨op, hbound, htarget⟩, fun a => ?_⟩
  · rw [hactions, List.nodup_append]
    refine ⟨hnodup, List.nodup_singleton _, ?_⟩
    rintro a hin b hb rfl
    exact hnew (List.mem_singleton.mp hb ▸ hin)
  · rw [hactions, List.mem_append, List.mem_singleton,
      mem_actions_iff_checked hbound htarget hroute hres hversion a]
    constructor
    · rintro (⟨z, hz, -, hchecked⟩ | rfl)
      · exact ⟨z, hz, hchecked⟩
      · obtain ⟨hz, hon⟩ := (hz₀mem z₀).mpr rfl
        refine ⟨z₀, hz, ?_⟩
        simp only [Checked, hon]
        exact ⟨c'.copySource, s, src, hsent, hreads, haction⟩
    · rintro ⟨z, hz, hchecked⟩
      cases hon : z.on with
      | target => exact .inl ⟨z, hz, hon, hchecked⟩
      | copySource =>
        -- one header has one reading, so the source that was checked is the one that is copied
        obtain rfl := (hz₀mem z).mp ⟨hz, hon⟩
        simp only [Checked, hon] at hchecked
        obtain ⟨_, s', _, -, hreads', ha⟩ := hchecked
        obtain rfl : s' = s := Except.ok.inj (hreads'.parsed.symm.trans hreads.parsed)
        exact .inr (by rw [ha, haction])
      | eachKey =>
        simp only [Checked, hon] at hchecked

theorem recorded_of_passed (hbind : rt.bind = some rt) (hcov : rt.covers object)
    (hf : rt.handle.forwards = some f) (hcopy : c.copySource = [])
    (hpass : Passed c rt c' actions) (hi : Forwarded c' f i)
    (hres : c.resource = frontResource c.cfg i)
    (hversion : ∀ act, versioned act rt.versionAction (c.query.get qpVersionID != []) =
      versioned act rt.versionAction i.versionId.isSome) : Recorded c rt c'.op i := by
  obtain ⟨-, hname, -, -, -, -, hcopies, -, hfresh⟩ := hcov.2 f hf
  obtain ⟨op, hop, hbound⟩ := Route.bound_of_bind hname hbind
  have hsends := hi.operation
  rcases copyVariant_eq_ok hpass.variant with ⟨hop', hsrc, hactions⟩ |
    ⟨copy, copyAction, s, src, action, hrtCopy, hrtAction, hop', hactions, hreads, haction⟩
  · have hnone : i.copySource = none := by
      rw [hi.copySource, hsrc, hcopy]
      simp
    rw [hsrc, hcopy, Forwards.runs_nil] at hsends
    exact recorded_of_own hname hop hbound hpass.route hres hversion hsends hnone hop' hactions
  · obtain ⟨cp, z₀, hcp, htarget, hz₀, rfl, hva⟩ := hbound.copy hrtCopy hrtAction
    have hsource : c'.copySource ≠ [] := by
      rw [hreads.sent]
      exact backendCopySource_ne_nil _ _
    have hsent : i.copySource = some c'.copySource := by
      rw [hi.copySource, hcopies, hrtCopy]
      simp [hsource]
    rw [Forwards.runs_copy (hcopies.trans hrtCopy) hsource] at hsends
    have hnew := copyAction_not_mem hpass.route hrtAction haction hfresh
    exact recorded_of_copy hbound hcp htarget hz₀ hpass.route hres hversion hnew hsends hsent hreads
      (by rw [haction, hva]) hop' hactions

/-- Whatever a copy reads is in a bucket of the requester's own tenant. -/
def CopiesOwn (g : Gateway) (vr : VerifiedRequest) (i : BackendInput) : Prop :=
  ∀ copySource, i.copySource = some copySource →
    ∃ value s src action, ReadsOwn g vr value copySource s src action

theorem copiesOwn_of_passed (hcopy : c.copySource = []) (hpass : Passed c rt c' actions)
    (hi : Forwarded c' f i) : CopiesOwn c.g c.vr i := by
  intro copySource hsent
  rw [hi.copySource] at hsent
  split at hsent
  · rename_i hcopies
    cases hsent
    rcases copyVariant_eq_ok hpass.variant with ⟨-, hsrc, -⟩ | ⟨_, _, s, src, action, -, -, -, -, hreads, -⟩
    · rw [hsrc, hcopy] at hcopies
      simp at hcopies
    · exact ⟨_, s, src, action, hreads⟩
  · cases hsent

/-- The handler of a route that passed puts nothing into an input that was not authorized. -/
theorem mediated_of_passed (hbind : rt.bind = some rt) (hcov : rt.covers object)
    (hkey : object = true ↔ c.key ≠ []) (hf : rt.handle.forwards = some f)
    (hcopy : c.copySource = []) (hpass : Passed c rt c' actions) (hi : Forwarded c' f i) :
    Mediated c.g c.vr c.cfg c.hdr c'.op i := by
  obtain ⟨hobject, -, hact, hversion, hupload, hbypass, -, -, -⟩ := hcov.2 f hf
  have hforwarded := hi
  rw [hpass.context] at hi
  obtain ⟨hres, hikey⟩ := resource_eq hkey hobject hi.key
  have hversioned := versioned_eq hversion hi.versionId
  obtain ⟨hnodup, name, o, hname, hsends, ho, ⟨op, hbound, htarget⟩, hactions⟩ :=
    recorded_of_passed hbind hcov hf hcopy hpass hforwarded hres hversioned
  -- a header the handler honours is present, hence its action authorized
  have hheader : ∀ ha ∈ rt.hdrActions, ha.present.holds c.hdr = true →
      authorize c.vr c.cfg ha.action.name (frontResource c.cfg i) = none := by
    intro ha hin hpresent
    rw [← hres]
    exact authorized_of_header hpass.route hin hpresent
  have hsigned : ∀ (header : Bytes) (a : Action), f.upload = true →
      ⟨.signedPresent header, a⟩ ∈ uploadHeaderActions → c.signed header ≠ [] →
      authorize c.vr c.cfg a.name (frontResource c.cfg i) = none := by
    intro header a hup hin hne
    exact hheader ⟨.signedPresent header, a⟩ (hupload hup _ hin) (bne_iff_ne.mpr hne)
  refine ⟨hi.bucket, ?_, hi.objects, ⟨name, o, hname, hsends, ho, ?_, hactions⟩, hnodup, ?_, ?_, ?_, ?_⟩
  · rw [hpass.key, hikey]
  · obtain ⟨act, hact⟩ := Option.isSome_iff_exists.mp hact
    obtain ⟨z, hz, hnone, rfl, hv⟩ := (hbound.action act rt.versionAction).mp ⟨hact, rfl⟩
    rw [← htarget, onTarget, List.mem_filter, decide_eq_true_eq] at hz
    refine ⟨z, hz.1, hz.2, hnone, ?_⟩
    rw [hv, ← hversioned, ← hres]
    obtain ⟨-, hauth, hmem⟩ := authorizeRoute_eq_ok hpass.route
    exact hauth _ ((hmem _).mpr (.inl ⟨_, hact, rfl⟩))
  · intro htag
    cases hup : f.upload with
    | false => exact absurd (by rw [hi.tagging, hup]; rfl) htag
    | true =>
      refine hsigned hdrTagging _ hup (by decide) fun hempty => htag ?_
      rw [hi.tagging, hup]
      exact if_pos hempty
  · intro hlock
    cases hup : f.upload with
    | false =>
      rw [hi.lock, hup] at hlock
      simp at hlock
    | true =>
      rw [hi.lock, hup] at hlock
      rcases hlock with hmode | hdate
      · exact hsigned hdrObjectLockMode _ hup (by decide) hmode
      · refine hsigned hdrObjectLockRetainUntil _ hup (by decide) fun hempty => hdate ?_
        exact if_pos hempty
  · intro hhold
    cases hup : f.upload with
    | false =>
      rw [hi.lock, hup] at hhold
      exact absurd rfl hhold
    | true =>
      rw [hi.lock, hup] at hhold
      exact hsigned hdrObjectLockLegalHold _ hup (by decide) hhold
  · intro hby
    rw [hi.bypass, Bool.and_eq_true] at hby
    exact hheader ⟨.bypassGovernanceRetention, .bypassGovernanceRetention⟩ (hbypass hby.1) hby.2

end Passing

/-- A `DeleteObjects` input, each of whose objects was authorized on its own. -/
def DeletesPermitted (vr : VerifiedRequest) (b : Bucket) (op : Op) (i : BackendInput) : Prop :=
  op.operation = some .deleteObjects ∧
    ∃ d : DeleteObjectsInput, i = .deleteObjects d ∧ d.bucket = b.backend.bucket ∧ d.objects ≠ [] ∧
      ∀ o ∈ d.objects, ObjectPermitted vr b d.bypassGovernanceRetention o

section Dispatched

variable {g : Gateway} {dec : Decoding} {r : Request} {b : Bucket} {vr : VerifiedRequest} {key : Bytes}
  {rt : Route} {c : OpCtx} {call : BackendCall}

/-- The checks of the first route that matches the query pass, and its handler is to run in `c`. -/
structure Dispatched (g : Gateway) (dec : Decoding) (r : Request) (b : Bucket) (vr : VerifiedRequest)
    (key : Bytes) (rt : Route) (c : OpCtx) : Prop where
  route : ∃ routes, routesOf r.method key = some routes ∧
    routes.find? (·.match_.holds r.url.query) = some rt
  encryption : (checkSSEC (newSignedHeader r vr.signedHeaders)).or
    (checkSSE (newSignedHeader r vr.signedHeaders)) = none
  checked : checkRoute (opCtx g dec r b vr key) rt = .ok c

theorem handleTarget_eq_dispatch {routes : List Route} (h : routesOf r.method key = some routes) :
    handleTarget g dec r b vr key = dispatch (opCtx g dec r b vr key) routes := by
  unfold routesOf at h
  unfold handleTarget handleBucketRequest handleObjectRequest
  split at h
  · rename_i hkey
    subst hkey
    rw [if_pos rfl, h]
  · rename_i hkey
    rw [if_neg hkey, h]

theorem handleTarget_eq_refuse (h : routesOf r.method key = none) :
    ∃ e, handleTarget g dec r b vr key = refuse e := by
  unfold routesOf at h
  unfold handleTarget handleBucketRequest handleObjectRequest
  split at h
  · rename_i hkey
    rw [if_pos hkey, h]
    exact ⟨_, rfl⟩
  · rename_i hkey
    rw [if_neg hkey, h]
    exact ⟨_, rfl⟩

variable (g dec r b vr key) in
theorem refused_or_dispatched :
    (∃ e, handleTarget g dec r b vr key = refuse e) ∨ ∃ rt c, Dispatched g dec r b vr key rt c := by
  cases hroutes : routesOf r.method key with
  | none => exact .inl (handleTarget_eq_refuse hroutes)
  | some routes =>
    rw [handleTarget_eq_dispatch hroutes]
    unfold dispatch
    split
    · exact .inl ⟨_, rfl⟩
    · rename_i hsse
      split
      · exact .inl ⟨_, rfl⟩
      · rename_i rt hmatch
        split
        · exact .inl ⟨_, rfl⟩
        · rename_i c hchecked
          exact .inr ⟨rt, c, ⟨routes, hroutes, hmatch⟩, hsse, hchecked⟩

namespace Dispatched

theorem passed (h : Dispatched g dec r b vr key rt c) :
    ∃ actions, Passed (opCtx g dec r b vr key) rt c actions := checkRoute_eq_ok h.checked

theorem handleTarget_eq (h : Dispatched g dec r b vr key rt c) :
    handleTarget g dec r b vr key = runOp g c.op (rt.handle.run c) := by
  obtain ⟨routes, hroutes, hmatch⟩ := h.route
  obtain ⟨_, hpass⟩ := h.passed
  have hg : c.g = g := by rw [hpass.context]; rfl
  rw [handleTarget_eq_dispatch hroutes]
  unfold dispatch
  rw [show (checkSSEC (opCtx g dec r b vr key).hdr).or (checkSSE (opCtx g dec r b vr key).hdr) = none
    from h.encryption]
  dsimp only
  rw [show routes.find? (·.match_.holds (opCtx g dec r b vr key).query) = some rt from hmatch]
  dsimp only
  rw [h.checked]
  dsimp only
  rw [hg]

theorem covers (h : Dispatched g dec r b vr key rt c) :
    ∃ object, rt.bind = some rt ∧ rt.covers object ∧ (object = true ↔ key ≠ []) := by
  obtain ⟨routes, hroutes, hmatch⟩ := h.route
  have hmem := List.mem_of_find?_eq_some hmatch
  unfold routesOf at hroutes
  split at hroutes
  · rename_i hkey
    obtain ⟨hbind, hcov⟩ := bucketRoutes_cover _ (mem_of_lookup hroutes) rt hmem
    exact ⟨false, hbind, hcov, by simpa using hkey⟩
  · rename_i hkey
    obtain ⟨hbind, hcov⟩ := objectRoutes_cover _ (mem_of_lookup hroutes) rt hmem
    exact ⟨true, hbind, hcov, by simpa using hkey⟩

theorem mediates (h : Dispatched g dec r b vr key rt c) (hrun : (rt.handle.run c).Issues call) :
    call.client = b.backend ∧ CopiesOwn g vr call.input ∧
      (DeletesPermitted vr b c.op call.input ∨
        Mediated g vr b (newSignedHeader r vr.signedHeaders) c.op call.input) := by
  obtain ⟨object, hbind, hcov, hkey⟩ := h.covers
  obtain ⟨actions, hpass⟩ := h.passed
  cases hf : rt.handle.forwards with
  | some f =>
    -- the handler forwards one input, which the checks of the route are about
    obtain ⟨hclient, hi⟩ := Prog.eachCall_iff.mp (run_forwards hf) call hrun
    have hmediated := mediated_of_passed hbind hcov hkey hf rfl hpass hi
    exact ⟨by rw [hclient, hpass.context]; rfl, copiesOwn_of_passed rfl hpass hi, .inr hmediated⟩
  | none =>
    -- of the handlers that do not forward, only the deletion of many objects calls the backend
    by_cases hdel : rt.handle = .deleteObjects
    · obtain ⟨hname, hnoCopy⟩ := hcov.1 hdel
      rw [hdel] at hrun
      obtain ⟨hclient, d, hd, hbucket, hsome, hobjects⟩ :=
        Prog.eachCall_iff.mp (deleteObjects_eachCall c) call hrun
      have hop : c.op.operation = some .deleteObjects := by
        rcases copyVariant_eq_ok hpass.variant with ⟨hop, -⟩ | ⟨copy, _, _, _, _, hcopy, -⟩
        · rw [hop, hname]
        · rw [hnoCopy] at hcopy
          cases hcopy
      rw [hpass.context] at hclient hbucket hobjects
      refine ⟨hclient, fun copySource hsent => ?_, .inl ⟨hop, d, hd, hbucket, hsome, hobjects⟩⟩
      rw [hd] at hsent
      cases hsent
    · exact (Prog.eachCall_iff.mp (run_silent hf hdel fun _ => False) call hrun).elim

end Dispatched

theorem dispatched_of_issues (h : (handleTarget g dec r b vr key).Issues call) :
    ∃ rt c, Dispatched g dec r b vr key rt c ∧ (rt.handle.run c).Issues call := by
  rcases refused_or_dispatched g dec r b vr key with ⟨e, hrefused⟩ | ⟨rt, c, hdispatched⟩
  · rw [hrefused] at h
    cases h
  · rw [hdispatched.handleTarget_eq] at h
    exact ⟨rt, c, hdispatched, runOp_issues h⟩

/-- Every backend call a request reaches through dispatch is mediated: it is sent for the operation
    the route recorded for the hooks, and that operation was authorized, on the very bucket and key
    the input addresses, for its own action and every one its contents call for. -/
theorem dispatch_mediates (h : (handleTarget g dec r b vr key).Issues call) :
    ∃ rt c, Dispatched g dec r b vr key rt c ∧
      handleTarget g dec r b vr key = runOp g c.op (rt.handle.run c) ∧
      (rt.handle.run c).Issues call ∧ call.client = b.backend ∧
      (DeletesPermitted vr b c.op call.input ∨
        Mediated g vr b (newSignedHeader r vr.signedHeaders) c.op call.input) := by
  obtain ⟨rt, c, hdispatched, hrun⟩ := dispatched_of_issues h
  obtain ⟨hclient, -, hmediated⟩ := hdispatched.mediates hrun
  exact ⟨rt, c, hdispatched, hdispatched.handleTarget_eq, hrun, hclient, hmediated⟩

end Dispatched

end Authorization

/-! ### A versioned read -/

/-- `GET /b/k?versionId=v` by a user of the bucket's own tenant. -/
def versionedGet : Request :=
  ⟨str "GET", str "/b/k?versionId=v", { path := str "/b/k", rawQuery := str "versionId=v" }, str "h",
    [], 0, []⟩

def ownRequester : VerifiedRequest :=
  ⟨str "tb", str "bob", none, .zero, str "UNSIGNED-PAYLOAD", []⟩

theorem versionedGet_mediated :
    let _ := asciiTables
    let prog := handleTarget sharedDeleteCtx.g sharedDeleteCtx.dec versionedGet sharedBucket
      ownRequester (str "k")
    ∃ call, prog.Issues call ∧ ∃ rt c,
      Dispatched sharedDeleteCtx.g sharedDeleteCtx.dec versionedGet sharedBucket ownRequester (str "k") rt c ∧
      prog = runOp sharedDeleteCtx.g c.op (rt.handle.run c) ∧ (rt.handle.run c).Issues call ∧
      call.client = sharedBucket.backend ∧
      (DeletesPermitted ownRequester sharedBucket c.op call.input ∨
        Mediated sharedDeleteCtx.g ownRequester sharedBucket (newSignedHeader versionedGet []) c.op
          call.input) := by
  intro _ prog
  have hfirst : prog.firstCall.isSome = true := by decide +kernel
  obtain ⟨call, hcall⟩ := Option.isSome_iff_exists.mp hfirst
  have hissues := Prog.issues_of_firstCall hcall
  exact ⟨call, hissues, dispatch_mediates hissues⟩

end S3Gateway.S3gw
