import S3Gateway.Library.Partition
import S3Gateway.S3gw.ErrorWording
import S3Gateway.S3gw.ObjectUrl
import S3Gateway.S3gw.Outputs

/-! # Tenants do not notice one another

Requests of many tenants run at the same time; their calls reach the backends in any order.
What a call is answered depends on the bucket it is about, on the bucket a copy reads, and on the
client it goes through, whose breaker and retry quota remember how earlier calls went.  For a
group of tenants whose buckets and clients are apart from everybody else's, and across whose
border no bucket policy grants anything, the requests of others leave no trace: every request
of the group makes the calls, gets the replies and ends as it would if the others had never
been sent.

The argument is about a single call: `touches_of_issues` says where it goes and what it reads,
and the rest is `Partition.interleave_purge`. -/

namespace S3Gateway.S3gw

open Go S3err Interaction Threads Partition

/-! ## Where a call goes -/

/-- Where a backend is and as whom it is used, the bucket aside. -/
structure Site where
  endpoint : Bytes
  region : Bytes
  accessKeyID : Bytes
deriving DecidableEq

def Backend.site (b : Backend) : Site := ⟨b.endpoint, b.region, b.accessKeyID⟩

/-- The bucket a copy source names to the backend. -/
def sourceBucket (copySource : Bytes) : Bytes :=
  (pathUnescape (cut (ch '/') (cut (ch '?') copySource).1).1).getD []

theorem sourceBucket_backendCopySource {bucket : Bytes} (h : ch '/' ∉ bucket) (s : CopySource) :
    sourceBucket (backendCopySource bucket s) = bucket := by
  have hbucket : ch '/' ∉ escape .path bucket := fun hmem => h ((mem_escape_path hmem).2.2.2 rfl)
  have hpath : (cut (ch '?') (backendCopySource bucket s)).1 = escape .path bucket ++ ch '/' :: escape .path s.key := by
    have hquery : ch '?' ∉ escape .path bucket ++ ch '/' :: escape .path s.key := by
      rw [← escape_slash_cons, ← escape_append]
      exact question_not_mem_escape _
    unfold backendCopySource
    rw [escapedPath_object]
    simp only [List.drop_succ_cons, List.drop_zero]
    split
    · rw [List.append_assoc]
      exact congrArg Prod.fst (cut_append hquery)
    · rw [cut_of_not_mem hquery]
  unfold sourceBucket
  rw [hpath, cut_append hbucket, pathUnescape_escape]
  rfl

section Cells

variable {Service Client : Type} (serve : Site → Service) (via : Backend → Client)

/-- What calls leave something in: a bucket of a service, where two sites may be one service, and
    a client of the gateway, which buckets may share. -/
inductive Cell (Service Client : Type) where
  | bucket (service : Service) (name : Bytes)
  | client (client : Client)
deriving DecidableEq

def Backend.cell (b : Backend) : Cell Service Client := .bucket (serve b.site) b.bucket

def BackendCall.writes (call : BackendCall) : List (Cell Service Client) :=
  [.bucket (serve call.client.site) call.input.bucket, .client (via call.client)]

def BackendCall.reads (call : BackendCall) : List (Cell Service Client) :=
  call.input.copySource.toList.map fun copySource => .bucket (serve call.client.site) (sourceBucket copySource)

end Cells

/-! ## What a call touches -/

section Touches

variable [Unicode] {g : Gateway} {dec : Decoding} {r : Request} {call : BackendCall}

/-- A call on behalf of a requester, on a bucket that is theirs or granted to them, which
    reads at most a bucket of theirs at the same site. -/
structure Touches (g : Gateway) (vr : VerifiedRequest) (b : Bucket) (call : BackendCall) : Prop where
  client : call.client = b.backend
  target : call.input.bucket = b.backend.bucket
  granted : b.tenant ≠ vr.tenant → ∃ a resource, PolicyGrants vr b a resource
  copies : ∀ copySource, call.input.copySource = some copySource →
    ∃ s src, g.store.getBucket vr.tenant s.bucket = .ok src ∧
      copySource = backendCopySource src.backend.bucket s ∧ src.backend.site = b.backend.site

theorem resolveCopySource_site {c : OpCtx} {copyAction : S3op.Action} {copyVersionAction : Option S3op.Action}
    {copySource : Bytes} {action : S3op.Action}
    (h : resolveCopySource c copyAction copyVersionAction = .ok (copySource, action)) :
    ∃ s src, c.g.store.getBucket c.vr.tenant s.bucket = .ok src ∧
      copySource = backendCopySource src.backend.bucket s ∧ src.backend.site = c.cfg.backend.site := by
  obtain ⟨s, -, h⟩ := Fallible.bind_eq_ok.mp h
  split at h
  · cases h
  · cases h
  · rename_i src hsrc
    obtain ⟨_, -, h⟩ := Fallible.bind_eq_ok.mp h
    dsimp only at h
    split at h
    · cases h
    · rename_i hsame
      injection h with h
      injection h with hsent
      simp only [not_or, not_not] at hsame
      refine ⟨s, src, hsrc, hsent.symm, ?_⟩
      unfold Backend.site
      rw [hsame.1, hsame.2.1, hsame.2.2]

theorem copySource_of_passed {c c' : OpCtx} {rt : Route} {actions : List S3op.Action} (hpass : Passed c rt c' actions)
    (hcopy : c.copySource = []) (hsome : c'.copySource ≠ []) :
    ∃ s src, c.g.store.getBucket c.vr.tenant s.bucket = .ok src ∧
      c'.copySource = backendCopySource src.backend.bucket s ∧ src.backend.site = c.cfg.backend.site := by
  have hvariant := hpass.variant
  unfold copyVariant at hvariant
  split at hvariant
  · split at hvariant
    · obtain ⟨⟨source, action⟩, hsource, hvariant⟩ := Fallible.bind_eq_ok.mp hvariant
      injection hvariant with hvariant
      injection hvariant with _ hrest
      injection hrest with hsent
      rw [← hsent]
      exact resolveCopySource_site hsource
    · injection hvariant with hvariant
      injection hvariant with _ hrest
      injection hrest with hsent
      exact absurd (hsent.symm.trans hcopy) hsome
  · injection hvariant with hvariant
    injection hvariant with _ hrest
    injection hrest with hsent
    exact absurd (hsent.symm.trans hcopy) hsome

theorem run_copySource {c : OpCtx} {handler : Handler} (hrun : (handler.run c).Issues call) {copySource : Bytes}
    (hsent : call.input.copySource = some copySource) : c.copySource = copySource ∧ c.copySource ≠ [] := by
  cases hf : handler.forwards with
  | some f =>
    obtain ⟨-, hi⟩ := Prog.eachCall_iff.mp (run_forwards hf) call hrun
    rw [hi.copySource] at hsent
    split at hsent
    · rename_i hcopies
      rw [Bool.and_eq_true, bne_iff_ne] at hcopies
      exact ⟨Option.some.inj hsent, hcopies.2⟩
    · cases hsent
  | none =>
    by_cases hdel : handler = .deleteObjects
    · rw [hdel] at hrun
      obtain ⟨-, d, hd, -⟩ := Prog.eachCall_iff.mp (deleteObjects_eachCall c) call hrun
      rw [hd] at hsent
      cases hsent
    · exact (Prog.eachCall_iff.mp (run_silent hf hdel fun _ => False) call hrun).elim

theorem Isolated.touches {vr : VerifiedRequest} {name : Bytes} {b : Bucket} {op : Op}
    (h : Isolated g vr name b op call)
    (hcopies : ∀ copySource, call.input.copySource = some copySource →
      ∃ s src, g.store.getBucket vr.tenant s.bucket = .ok src ∧
        copySource = backendCopySource src.backend.bucket s ∧ src.backend.site = b.backend.site) :
    Touches g vr b call := by
  refine ⟨h.client, h.target, fun htenant => ?_, hcopies⟩
  obtain ⟨a, resource, hacts⟩ := h.acts
  exact ⟨a, resource, h.granted htenant a resource hacts⟩

theorem Prepared.touches {form : Form} {vr : VerifiedRequest} {t : Target} {b : Bucket} {op : Op} {run : HandlerProg}
    (h : Prepared g dec r form vr t b op run) (hrun : run.Issues call) : Touches g vr b call := by
  refine (h.isolated hrun).touches fun copySource hsent => ?_
  cases h with
  | @upload _ c fields pp htarget hok =>
    obtain ⟨-, hi⟩ := Prog.eachCall_iff.mp (postPutObject_eachCall c fields pp) call hrun
    rw [hi.copySource] at hsent
    cases hsent
  | dispatched hmethod hupload hverified htarget hresolved hdispatched =>
    obtain ⟨actions, hpass⟩ := hdispatched.passed
    obtain ⟨rfl, hsome⟩ := run_copySource hrun hsent
    exact copySource_of_passed hpass rfl hsome

/-! ## On whose behalf -/

/-- Who a request is from, once its signature or its form is verified. -/
def requester (g : Gateway) (dec : Decoding) (r : Request) (form : Form) : Option VerifiedRequest :=
  if r.method = str "OPTIONS" then none
  else
    match uploadTarget g dec r with
    | .error _ => none
    | .ok (some t) =>
      match postForm form t.bucket with
      | .error _ => none
      | .ok (fields, _) => (verifyPostRequest g r fields).toOption.map (·.1)
    | .ok none => (g.verifyRequest r).toOption.map (·.1)

theorem postForm_of_prepared {form : Form} {t : Target} {c : OpCtx} {fields : Sigv4.Fields} {pp : Sigv4.PostPolicy}
    (h : preparePost g dec r form t = .ok (c, fields, pp)) : ∃ key, postForm form t.bucket = .ok (fields, key) := by
  obtain ⟨_, -, h⟩ := Fallible.bind_eq_ok.mp h
  obtain ⟨_, -, h⟩ := Fallible.bind_eq_ok.mp h
  obtain ⟨⟨fields', key⟩, hform, h⟩ := Fallible.bind_eq_ok.mp h
  obtain ⟨⟨vr, pp'⟩, -, h⟩ := Fallible.bind_eq_ok.mp h
  obtain ⟨_, -, h⟩ := Fallible.bind_eq_ok.mp h
  obtain ⟨b, -, h⟩ := Fallible.bind_eq_ok.mp h
  obtain ⟨_, -, h⟩ := Fallible.bind_eq_ok.mp h
  obtain ⟨_, -, h⟩ := Fallible.bind_eq_ok.mp h
  obtain ⟨_, -, h⟩ := Fallible.bind_eq_ok.mp h
  obtain ⟨_, -, h⟩ := Fallible.bind_eq_ok.mp h
  obtain ⟨actions, -, h⟩ := Fallible.bind_eq_ok.mp h
  cases h
  exact ⟨key, hform⟩

theorem method_of_upload {t : Target} (h : uploadTarget g dec r = .ok (some t)) : r.method = str "POST" := by
  unfold uploadTarget at h
  split at h
  · rename_i hpost
    exact hpost.1
  · cases h

theorem Prepared.requester_eq {form : Form} {vr : VerifiedRequest} {t : Target} {b : Bucket} {op : Op}
    {run : HandlerProg} (h : Prepared g dec r form vr t b op run) : requester g dec r form = some vr := by
  unfold requester
  cases h with
  | upload htarget hok =>
    obtain ⟨key, hform⟩ := postForm_of_prepared hok
    have hmethod : r.method ≠ str "OPTIONS" := by
      rw [method_of_upload htarget]
      decide
    rw [if_neg hmethod, htarget]
    simp only [hform, (preparePost_eq_ok hok).verified]
    rfl
  | dispatched hmethod hupload hverified htarget hresolved hdispatched =>
    rw [if_neg hmethod, hupload]
    simp only [hverified]
    rfl

/-- Every call of a request is made for its requester, on a bucket they resolve. -/
theorem touches_of_issues {form : Form} (h : (handleRequest g dec r form).Issues call) :
    ∃ vr name b, requester g dec r form = some vr ∧ resolveBucket g vr name = .ok b ∧ Touches g vr b call := by
  obtain ⟨vr, t, b, op, run, hprepared, -, hrun⟩ := prepared_of_issues h
  exact ⟨vr, t.bucket, b, hprepared.requester_eq, (hprepared.isolated hrun).resolved, hprepared.touches hrun⟩

end Touches

/-! ## Groups of tenants -/

section Groups

variable [Unicode] {Service Client V τ : Type}

def Gateway.Knows (g : Gateway) (b : Bucket) : Prop :=
  (∃ tenant name, g.store.getBucket tenant name = .ok b) ∨ ∃ name, g.store.getBucketByName name = .ok b

/-- A group whose buckets lie apart from those of others, and across whose border nothing is
    granted, in either direction. -/
structure Apart (g : Gateway) (serve : Site → Service) (group : Bytes → Bool) : Prop where
  names : ∀ b, g.Knows b → ch '/' ∉ b.backend.bucket
  cells : ∀ b b', g.Knows b → g.Knows b' → group b.tenant = true → group b'.tenant = false →
    (serve b.backend.site, b.backend.bucket) ≠ (serve b'.backend.site, b'.backend.bucket)
  grants : ∀ vr b a resource, g.Knows b → PolicyGrants vr b a resource → group vr.tenant = group b.tenant

/-- No client, and so no breaker, serves the group and others. -/
def ClientsApart (g : Gateway) (via : Backend → Client) (group : Bytes → Bool) : Prop :=
  ∀ b b', g.Knows b → g.Knows b' → group b.tenant = true → group b'.tenant = false → via b.backend ≠ via b'.backend

def GroupBucket (g : Gateway) (serve : Site → Service) (group : Bytes → Bool) (cell : Cell Service Client) : Prop :=
  ∃ b, g.Knows b ∧ group b.tenant = true ∧ cell = b.backend.cell serve

/-- The buckets of a group and the clients that serve them. -/
def GroupCell (g : Gateway) (serve : Site → Service) (via : Backend → Client) (group : Bytes → Bool)
    (cell : Cell Service Client) : Prop :=
  GroupBucket g serve group cell ∨ ∃ b, g.Knows b ∧ group b.tenant = true ∧ cell = .client (via b.backend)

def madeFor (g : Gateway) (dec : Decoding) (group : Bytes → Bool) (request : Request × Form) : Bool :=
  (requester g dec request.1 request.2).any fun vr => group vr.tenant

variable {g : Gateway} {dec : Decoding} {serve : Site → Service} {via : Backend → Client} {group : Bytes → Bool}
  {call : BackendCall} {vr : VerifiedRequest} {b : Bucket}

omit [Unicode] in
theorem knows_of_resolveBucket {name : Bytes} (h : resolveBucket g vr name = .ok b) : g.Knows b := by
  unfold resolveBucket at h
  split at h
  · rename_i hown
    cases h
    exact .inl ⟨_, _, hown⟩
  · cases h
  · split at h
    · cases h
    · cases h
    · rename_i hnamed
      split at h
      · cases h
        exact .inr ⟨_, hnamed⟩
      · cases h

theorem Touches.group_eq (hapart : Apart g serve group) (hb : g.Knows b) (h : Touches g vr b call) :
    group vr.tenant = group b.tenant := by
  by_cases htenant : b.tenant = vr.tenant
  · rw [htenant]
  · obtain ⟨a, resource, hgrants⟩ := h.granted htenant
    exact hapart.grants vr b a resource hb hgrants

theorem Touches.mem_writes (h : Touches g vr b call) {cell : Cell Service Client} :
    cell ∈ call.writes serve via ↔ cell = b.backend.cell serve ∨ cell = .client (via b.backend) := by
  unfold BackendCall.writes Backend.cell
  rw [h.client, h.target]
  simp

theorem Touches.mem_reads (hapart : Apart g serve group) (h : Touches g vr b call) {cell : Cell Service Client}
    (hcell : cell ∈ call.reads serve) :
    ∃ src, g.Knows src ∧ src.tenant = vr.tenant ∧ cell = src.backend.cell serve := by
  obtain ⟨copySource, hsent, rfl⟩ := List.mem_map.mp hcell
  obtain ⟨s, src, hfound, hsource, hsite⟩ := h.copies copySource (Option.mem_toList.mp hsent)
  have hknown : g.Knows src := .inl ⟨_, _, hfound⟩
  refine ⟨src, hknown, g.store.getBucket_tenant hfound, ?_⟩
  rw [hsource, sourceBucket_backendCopySource (hapart.names src hknown), h.client, ← hsite]
  rfl

theorem Touches.within (hapart : Apart g serve group) (hb : g.Knows b) (h : Touches g vr b call)
    (hgroup : group vr.tenant = true) :
    ∀ cell ∈ call.writes serve via ++ call.reads serve, GroupCell g serve via group cell := by
  intro cell hcell
  have hown : group b.tenant = true := by rw [← h.group_eq hapart hb, hgroup]
  rcases List.mem_append.mp hcell with hwritten | hread
  · rcases h.mem_writes.mp hwritten with hbucket | hclient
    · exact .inl ⟨b, hb, hown, hbucket⟩
    · exact .inr ⟨b, hb, hown, hclient⟩
  · obtain ⟨src, hknown, htenant, hsource⟩ := h.mem_reads hapart hread
    exact .inl ⟨src, hknown, by rw [htenant, hgroup], hsource⟩

theorem Touches.leaves_buckets (hapart : Apart g serve group) (hb : g.Knows b) (h : Touches g vr b call)
    (hgroup : group vr.tenant = false) : ∀ cell ∈ call.writes serve via, ¬GroupBucket g serve group cell := by
  rintro cell hcell ⟨b', hb', hgroup', rfl⟩
  rcases h.mem_writes.mp hcell with hbucket | hclient
  · refine hapart.cells b' b hb' hb hgroup' (by rw [← h.group_eq hapart hb, hgroup]) ?_
    injection hbucket with hservice hname
    rw [hservice, hname]
  · cases hclient

theorem Touches.apart (hapart : Apart g serve group) (hclients : ClientsApart g via group) (hb : g.Knows b)
    (h : Touches g vr b call) (hgroup : group vr.tenant = false) :
    ∀ cell ∈ call.writes serve via, ¬GroupCell g serve via group cell := by
  rintro cell hcell (hbucket | ⟨b', hb', hgroup', rfl⟩)
  · exact h.leaves_buckets hapart hb hgroup cell hcell hbucket
  · rcases h.mem_writes.mp hcell with hbucket | hclient
    · cases hbucket
    · injection hclient with hclient
      exact hclients b' b hb' hb hgroup' (by rw [← h.group_eq hapart hb, hgroup]) hclient

def incoming (g : Gateway) (dec : Decoding) (requests : τ → Request × Form) (m : Cell Service Client → V) :
    System τ (Cell Service Client → V) (Session BackendCall SdkReply BackendReply HandlerResult) where
  shared := m
  own t := ⟨[], handleRequest g dec (requests t).1 (requests t).2⟩

/-- Whatever requests run at the same time and in whatever order their calls reach the
    backends: every request of the group makes the calls, gets the replies and ends as if the
    requests of others had not been sent, and so do the group's buckets end. -/
theorem tenants_unnoticed [DecidableEq τ] (dec : Decoding) (hapart : Apart g serve group)
    (hclients : ClientsApart g via group)
    (backends : Memory V SdkReply (BackendCall.writes serve via) (BackendCall.reads serve))
    (requests : τ → Request × Form) (m : Cell Service Client → V) (schedule : List τ) :
    let after := interleave (move actedReply backends) (incoming g dec requests m) schedule
    let alone := interleave (move actedReply backends) (incoming g dec requests m)
      (schedule.filter fun t => madeFor g dec group (requests t))
    (∀ t, madeFor g dec group (requests t) = true → after.own t = alone.own t) ∧
      ∀ b, g.Knows b → group b.tenant = true →
        after.shared (b.backend.cell serve) = alone.shared (b.backend.cell serve) := by
  intro after alone
  have hagree : Agree (GroupCell g serve via group) (fun t => madeFor g dec group (requests t))
      (BackendCall.writes serve via) (BackendCall.reads serve) after alone := by
    apply interleave_purge
    · intro t ht
      refine Prog.eachCall_iff.mpr fun call hcall => ?_
      obtain ⟨vr, name, b, hfrom, hresolved, htouches⟩ := touches_of_issues hcall
      rw [madeFor, hfrom] at ht
      exact htouches.within hapart (knows_of_resolveBucket hresolved) ht
    · intro t ht
      refine Prog.eachCall_iff.mpr fun call hcall => ?_
      obtain ⟨vr, name, b, hfrom, hresolved, htouches⟩ := touches_of_issues hcall
      rw [madeFor, hfrom] at ht
      exact htouches.apart hapart hclients (knows_of_resolveBucket hresolved) ht
  exact ⟨fun t ht => hagree.own t ht, fun b hb hgroup => hagree.cells _ (.inl ⟨b, hb, hgroup, rfl⟩)⟩

end Groups

/-! ### Two tenants -/

/-- The one bucket of a tenant, reached with a key of its own. -/
def onlyBucket (tenant : Bytes) : Bucket :=
  { sharedBucket with
    tenant, name := tenant, policyText := [], policy := none
    backend := { sharedBucket.backend with bucket := tenant, accessKeyID := tenant } }

def twoTenantStore : Store where
  getBucket tenant name :=
    if name = tenant ∧ tenant ∈ [str "ta", str "tb"] then .ok (onlyBucket tenant) else .error .notFound
  getBucketByName name := if name ∈ [str "ta", str "tb"] then .ok (onlyBucket name) else .error .notFound
  listBuckets _ := .ok []
  getBucket_tenant h := by
    split at h
    · cases h
      rfl
    · cases h

/-- A gateway that takes the host of a request for its tenant. -/
def twoTenantGateway : Gateway :=
  { sharedDeleteCtx.g with
    store := twoTenantStore
    verifyRequest := fun r => .ok ({ sharedDeleteCtx.vr with tenant := r.host }, r.header) }

theorem twoTenantGateway_knows {b : Bucket} (h : twoTenantGateway.Knows b) :
    ∃ tenant ∈ [str "ta", str "tb"], b = onlyBucket tenant := by
  rcases h with ⟨tenant, name, h⟩ | ⟨name, h⟩
  · change (if _ then _ else _) = _ at h
    split at h
    · rename_i hknown
      cases h
      exact ⟨tenant, hknown.2, rfl⟩
    · cases h
  · change (if _ then _ else _) = _ at h
    split at h
    · rename_i hknown
      cases h
      exact ⟨name, hknown, rfl⟩
    · cases h

theorem twoTenantGateway_clientsApart : ClientsApart twoTenantGateway Backend.site (· == str "ta") := by
  intro b b' hb hb'
  obtain ⟨tenant, ht, rfl⟩ := twoTenantGateway_knows hb
  obtain ⟨tenant', ht', rfl⟩ := twoTenantGateway_knows hb'
  clear hb hb'
  revert tenant tenant'
  decide +kernel

theorem twoTenantGateway_apart [Unicode] : Apart twoTenantGateway Site.endpoint (· == str "ta") where
  names b hb := by
    obtain ⟨tenant, ht, rfl⟩ := twoTenantGateway_knows hb
    clear hb
    revert tenant
    decide +kernel
  cells b b' hb hb' := by
    obtain ⟨tenant, ht, rfl⟩ := twoTenantGateway_knows hb
    obtain ⟨tenant', ht', rfl⟩ := twoTenantGateway_knows hb'
    clear hb hb'
    revert tenant tenant'
    decide +kernel
  grants vr b a resource hb hgrants := by
    obtain ⟨tenant, ht, rfl⟩ := twoTenantGateway_knows hb
    obtain ⟨p, hp, -⟩ := hgrants
    cases hp

/-- Backends that number the calls on each bucket, behind clients that number the calls through
    them; one server has both buckets. -/
def countingBackends : Memory Nat SdkReply (BackendCall.writes Site.endpoint Backend.site)
    (BackendCall.reads Site.endpoint) where
  answer call m :=
    (.ok (.deleteObject ⟨some ((call.writes Site.endpoint Backend.site).map fun cell => (m cell).toUInt8), none⟩),
      fun cell => if cell ∈ call.writes Site.endpoint Backend.site then m cell + 1 else m cell)
  frame _ _ _ h := if_neg h
  depends call m m' h := by
    have hwritten : ∀ cell ∈ call.writes Site.endpoint Backend.site, m cell = m' cell :=
      fun cell hcell => h cell (List.mem_append_left _ hcell)
    refine ⟨?_, fun cell hcell => by simp [hcell, hwritten cell hcell]⟩
    rw [List.map_congr_left fun cell hcell => by rw [hwritten cell hcell]]

/-- `DELETE /ta/k` of `ta` for true and `DELETE /tb/k` of `tb` for false. -/
def twoDeletes (own : Bool) : Request × Form :=
  let tenant := if own then str "ta" else str "tb"
  (⟨str "DELETE", str "/" ++ tenant ++ str "/k", { path := str "/" ++ tenant ++ str "/k" }, tenant, [], 0, []⟩, .ok [])

theorem twoDeletes_unnoticed :
    let _ := asciiTables
    let dec := sharedDeleteCtx.dec
    let start := incoming twoTenantGateway dec twoDeletes fun _ : Cell Bytes Site => 0
    madeFor twoTenantGateway dec (· == str "ta") (twoDeletes true) = true ∧
      madeFor twoTenantGateway dec (· == str "ta") (twoDeletes false) = false ∧
      (handleRequest twoTenantGateway dec (twoDeletes false).1 (twoDeletes false).2).firstCall.isSome = true ∧
      (interleave (move actedReply countingBackends) start [false, true]).own true =
        (interleave (move actedReply countingBackends) start [true]).own true := by
  intro _ dec start
  have hown : madeFor twoTenantGateway dec (· == str "ta") (twoDeletes true) = true := by decide +kernel
  have hother : madeFor twoTenantGateway dec (· == str "ta") (twoDeletes false) = false := by decide +kernel
  refine ⟨hown, hother, by decide +kernel, ?_⟩
  have hkept : [false, true].filter (fun t => madeFor twoTenantGateway dec (· == str "ta") (twoDeletes t)) = [true] := by
    simp [hown, hother]
  have hunnoticed := (tenants_unnoticed dec twoTenantGateway_apart twoTenantGateway_clientsApart countingBackends
    twoDeletes (fun _ => 0) [false, true]).1 true hown
  rw [hkept] at hunnoticed
  exact hunnoticed

end S3Gateway.S3gw
