import S3Gateway.S3rp.Validate

/-! # The store of a configuration

`NewConfigStore` and the four lookups.  The tables of the Go program are association lists here,
so `ListBuckets` lists in some order. -/

namespace S3Gateway.S3rp

open Go Fallible Policy Accumulate S3err

/-! ## The store -/

/-- `store.Key`, as far as the configuration fills it in. -/
structure Key where
  accessKeyID : Bytes
  secretAccessKey : Bytes
  tenant : Bytes
  user : Bytes
  policy : Option UserPolicy

/-- `store.Bucket`, with the whole definition of its backend. -/
structure Bucket where
  tenant : Bytes
  name : Bytes
  backend : Option BackendConfig
  policyText : Bytes
  policy : Option ParsedPolicy
  cors : List Cors.Rule
  createdAt : Option Time

structure ConfigStore where
  keys : AList fun _ : Bytes => Key
  tenants : AList fun _ : Bytes => AList fun _ : Bytes => Bucket
  byName : AList fun _ : Bytes => Bucket

/-- The panic of `NewConfigStore`: a policy that does not parse after all. -/
structure Panic where
  bucket : Bytes
  err : Policy.Error Bytes

def UserConfig.key (u : UserConfig) (tenant : Bytes) (k : KeyConfig) : Key where
  accessKeyID := k.accessKeyID
  secretAccessKey := k.secretAccessKey
  tenant := tenant
  user := u.name
  policy := if u.policy = [] then none else some ⟨u.policy⟩

/-- The keys of a tenant, in the order they are put into the table. -/
def TenantConfig.keyEntries (t : TenantConfig) : List (Bytes × Key) :=
  t.users.flatMap fun u => u.keys.map fun k => (k.accessKeyID, u.key t.name k)

def bucketEntries (stored : List Bucket) : List (Bytes × Bucket) := stored.map fun b => (b.name, b)

/-- The body of the loop of `NewConfigStore`, once the buckets are made. -/
def ConfigStore.addTenant (s : ConfigStore) (t : TenantConfig) (stored : List Bucket) : ConfigStore where
  keys := fill s.keys t.keyEntries
  tenants := s.tenants.insert t.name (fill ∅ (bucketEntries stored))
  byName := fill s.byName (bucketEntries stored)

section Definitions

variable [Unicode] (unmarshal : Bytes → Option JsonDocument)

/-- The bucket of a definition.  Actions are not checked again. -/
def storeBucket (tenant : Bytes) (b : BucketConfig) : Except Panic Bucket :=
  let bucket (policy : Option ParsedPolicy) : Bucket :=
    { tenant, name := b.name, backend := b.backend, policyText := b.policy, policy, cors := b.cors,
      createdAt := b.createdAt }
  if b.policy = [] then .ok (bucket none)
  else
    -- unknown actions may have been accepted with a warning
    match h : parsePolicy unmarshal none b.name b.policy with
    | .error e => .error ⟨b.name, e⟩
    | .ok _ => .ok (bucket (some (.ofParse h)))

def newConfigStore (c : Config) : Except Panic ConfigStore :=
  c.tenants.foldlM (fun s t => do
    let stored ← t.buckets.mapM (storeBucket unmarshal t.name)
    .ok (s.addTenant t stored)) ⟨∅, ∅, ∅⟩

end Definitions

namespace ConfigStore

/-- `GetKey(ctx, accessKeyID, sessionToken)`: the token is left to the gateway's own check. -/
def getKey (s : ConfigStore) (accessKeyID _sessionToken : Bytes) : Except StoreError Key :=
  orError (s.keys.lookup accessKeyID) .notFound

/-- `GetBucket(ctx, tenant, bucket)`: a tenant that does not exist has the nil table. -/
def getBucket (s : ConfigStore) (tenant bucket : Bytes) : Except StoreError Bucket :=
  orError ((s.tenants.lookup tenant).bind (·.lookup bucket)) .notFound

def getBucketByName (s : ConfigStore) (bucket : Bytes) : Except StoreError Bucket :=
  orError (s.byName.lookup bucket) .notFound

def listBuckets (s : ConfigStore) (tenant : Bytes) : Except StoreError (List S3gw.BucketEntry) := do
  let buckets ← orError (s.tenants.lookup tenant) .notFound
  .ok (buckets.entries.map fun e => ⟨e.2.name, e.2.createdAt⟩)

end ConfigStore

/-! ## The store of a sound configuration -/

section Sound

variable [Unicode] {unmarshal : Bytes → Option JsonDocument} {c : Config}

theorem storeBucket_eq_ok {tenant : Bytes} {b : BucketConfig} {bucket : Bucket}
    (h : storeBucket unmarshal tenant b = .ok bucket) :
    bucket.tenant = tenant ∧ bucket.name = b.name ∧ bucket.backend = b.backend := by
  unfold storeBucket at h
  dsimp only at h
  split at h
  · cases h
    exact ⟨rfl, rfl, rfl⟩
  · split at h
    · cases h
    · cases h
      exact ⟨rfl, rfl, rfl⟩

theorem exists_storeBucket {b : BucketConfig} (h : ConfigNames.ValidBucket unmarshal b) (tenant : Bytes) :
    ∃ bucket, storeBucket unmarshal tenant b = .ok bucket := by
  unfold storeBucket
  dsimp only
  split
  · exact ⟨_, rfl⟩
  · rename_i hpolicy
    obtain ⟨p, hp⟩ := h.policy hpolicy
    split
    · rename_i e he
      rw [hp] at he
      cases he
    · exact ⟨_, rfl⟩

variable (unmarshal) in
def TenantConfig.stored (t : TenantConfig) : List Bucket :=
  (t.buckets.mapM (storeBucket unmarshal t.name)).toOption.getD []

section Stored

variable {t : TenantConfig} (h : ∀ b ∈ t.buckets, ConfigNames.ValidBucket unmarshal b)
include h

theorem TenantConfig.mapM_stored : t.buckets.mapM (storeBucket unmarshal t.name) = .ok (t.stored unmarshal) := by
  obtain ⟨stored, hstored⟩ := exists_mapM fun b hb => exists_storeBucket (h b hb) t.name
  rw [TenantConfig.stored, hstored]
  rfl

theorem TenantConfig.stored_names : (t.stored unmarshal).map (·.name) = t.bucketNames :=
  map_mapM (t.mapM_stored h) fun _ _ hb => (storeBucket_eq_ok hb).2.1

theorem TenantConfig.tenant_of_stored {bucket : Bucket} (hbucket : bucket ∈ t.stored unmarshal) :
    bucket.tenant = t.name := by
  obtain ⟨b, -, hb⟩ := (mem_mapM (t.mapM_stored h)).mp hbucket
  exact (storeBucket_eq_ok hb).1

end Stored

variable (unmarshal) in
def Config.store (c : Config) : ConfigStore :=
  c.tenants.foldl (fun s t => s.addTenant t (t.stored unmarshal)) ⟨∅, ∅, ∅⟩

theorem newConfigStore_eq (h : c.Sound unmarshal) : newConfigStore unmarshal c = .ok (c.store unmarshal) := by
  apply foldlM_eq_foldl
  intro t ht s
  rw [t.mapM_stored (h.buckets t ht)]
  rfl

/-! ### Its tables -/

theorem keys_foldl (ts : List TenantConfig) (s : ConfigStore) :
    (ts.foldl (fun s t => s.addTenant t (t.stored unmarshal)) s).keys =
      fill s.keys (ts.flatMap (·.keyEntries)) := by
  induction ts generalizing s with
  | nil => rfl
  | cons t ts ih => rw [List.foldl_cons, ih, List.flatMap_cons, fill_append, ConfigStore.addTenant]

theorem byName_foldl (ts : List TenantConfig) (s : ConfigStore) :
    (ts.foldl (fun s t => s.addTenant t (t.stored unmarshal)) s).byName =
      fill s.byName (ts.flatMap fun t => bucketEntries (t.stored unmarshal)) := by
  induction ts generalizing s with
  | nil => rfl
  | cons t ts ih => rw [List.foldl_cons, ih, List.flatMap_cons, fill_append, ConfigStore.addTenant]

theorem tenants_foldl (ts : List TenantConfig) (s : ConfigStore) :
    (ts.foldl (fun s t => s.addTenant t (t.stored unmarshal)) s).tenants =
      fill s.tenants (ts.map fun t => (t.name, fill ∅ (bucketEntries (t.stored unmarshal)))) := by
  induction ts generalizing s with
  | nil => rfl
  | cons t ts ih =>
    rw [List.foldl_cons, ih, List.map_cons, ConfigStore.addTenant]
    rfl

omit [Unicode] in
theorem keyEntries_keys (t : TenantConfig) : t.keyEntries.map Prod.fst = t.keyIDs := by
  simp [TenantConfig.keyEntries, TenantConfig.keyIDs, UserConfig.keyIDs, List.map_flatMap, Function.comp_def]

theorem Config.Sound.lookup_keys (h : c.Sound unmarshal) {id : Bytes} {key : Key} :
    (c.store unmarshal).keys.lookup id = some key ↔ ∃ t ∈ c.tenants, ∃ u ∈ t.users, ∃ k ∈ u.keys,
      k.accessKeyID = id ∧ u.key t.name k = key := by
  rw [Config.store, keys_foldl]
  have hnodup : ((c.tenants.flatMap (·.keyEntries)).map Prod.fst).Nodup := by
    simpa only [List.map_flatMap, keyEntries_keys] using h.keyIDs
  rw [lookup_fill_iff hnodup]
  simp [TenantConfig.keyEntries]

omit [Unicode] in
theorem mem_bucketEntries {stored : List Bucket} {name : Bytes} {bucket : Bucket} :
    (name, bucket) ∈ bucketEntries stored ↔ bucket ∈ stored ∧ bucket.name = name := by
  simp [bucketEntries, and_comm]

theorem bucketEntries_keys (h : c.Sound unmarshal) {t : TenantConfig} (ht : t ∈ c.tenants) :
    (bucketEntries (t.stored unmarshal)).map Prod.fst = t.bucketNames := by
  rw [bucketEntries, List.map_map]
  exact t.stored_names (h.buckets t ht)

theorem Config.Sound.lookup_byName (h : c.Sound unmarshal) {name : Bytes} {bucket : Bucket} :
    (c.store unmarshal).byName.lookup name = some bucket ↔
      ∃ t ∈ c.tenants, bucket ∈ t.stored unmarshal ∧ bucket.name = name := by
  rw [Config.store, byName_foldl]
  have hnames : (c.tenants.flatMap fun t => bucketEntries (t.stored unmarshal)).map Prod.fst =
      c.tenants.flatMap (·.bucketNames) := by
    rw [List.map_flatMap]
    exact List.flatMap_congr fun t ht => bucketEntries_keys h ht
  have hnodup := h.bucketNames
  rw [← hnames] at hnodup
  rw [lookup_fill_iff hnodup]
  simp [mem_bucketEntries]

theorem Config.Sound.lookup_tenants (h : c.Sound unmarshal) {tenant : Bytes} {buckets : AList fun _ : Bytes => Bucket} :
    (c.store unmarshal).tenants.lookup tenant = some buckets ↔
      ∃ t ∈ c.tenants, t.name = tenant ∧ fill ∅ (bucketEntries (t.stored unmarshal)) = buckets := by
  rw [Config.store, tenants_foldl]
  have hnodup : ((c.tenants.map fun t => (t.name, fill ∅ (bucketEntries (t.stored unmarshal)))).map Prod.fst).Nodup := by
    simpa only [List.map_map, Function.comp_def] using h.tenantNames
  rw [lookup_fill_iff hnodup]
  simp

theorem Config.Sound.lookup_stored (h : c.Sound unmarshal) {t : TenantConfig} (ht : t ∈ c.tenants) {name : Bytes}
    {bucket : Bucket} : (fill ∅ (bucketEntries (t.stored unmarshal))).lookup name = some bucket ↔
      bucket ∈ t.stored unmarshal ∧ bucket.name = name := by
  have hnodup : t.bucketNames.Nodup := (List.nodup_flatMap.mp h.bucketNames).1 t ht
  rw [← bucketEntries_keys h ht] at hnodup
  rw [lookup_fill_iff hnodup, mem_bucketEntries]

/-! ### Its lookups -/

structure ConfigStore.Consistent (s : ConfigStore) (c : Config) : Prop where
  key : ∀ t ∈ c.tenants, ∀ u ∈ t.users, ∀ k ∈ u.keys, ∀ token, s.getKey k.accessKeyID token = .ok (u.key t.name k)
  noKey : ∀ id token, (∀ t ∈ c.tenants, id ∉ t.keyIDs) → s.getKey id token = .error .notFound
  bucket : ∀ tenant name bucket, s.getBucket tenant name = .ok bucket ↔
    s.getBucketByName name = .ok bucket ∧ bucket.tenant = tenant
  listed : ∀ t ∈ c.tenants, ∃ entries, s.listBuckets t.name = .ok entries ∧ (entries.map (·.name)).Nodup ∧
    ∀ entry, entry ∈ entries ↔ ∃ bucket, s.getBucket t.name entry.name = .ok bucket ∧ entry.createdAt = bucket.createdAt
  unlisted : ∀ tenant, (∀ t ∈ c.tenants, t.name ≠ tenant) →
    s.listBuckets tenant = .error .notFound ∧ ∀ name, s.getBucket tenant name = .error .notFound

theorem Config.Sound.getBucket_eq_ok (h : c.Sound unmarshal) {tenant name : Bytes} {bucket : Bucket} :
    (c.store unmarshal).getBucket tenant name = .ok bucket ↔
      ∃ t ∈ c.tenants, t.name = tenant ∧ bucket ∈ t.stored unmarshal ∧ bucket.name = name := by
  rw [ConfigStore.getBucket, orError_eq_ok, Option.bind_eq_some_iff]
  constructor
  · rintro ⟨buckets, hbuckets, hlookup⟩
    obtain ⟨t, ht, hname, hfill⟩ := h.lookup_tenants.mp hbuckets
    rw [← hfill] at hlookup
    exact ⟨t, ht, hname, (h.lookup_stored ht).mp hlookup⟩
  · rintro ⟨t, ht, hname, hstored⟩
    exact ⟨_, h.lookup_tenants.mpr ⟨t, ht, hname, rfl⟩, (h.lookup_stored ht).mpr hstored⟩

theorem Config.Sound.getBucket_of_mem (h : c.Sound unmarshal) {t : TenantConfig} (ht : t ∈ c.tenants) {name : Bytes}
    {bucket : Bucket} : (c.store unmarshal).getBucket t.name name = .ok bucket ↔
      bucket ∈ t.stored unmarshal ∧ bucket.name = name := by
  rw [ConfigStore.getBucket, h.lookup_tenants.mpr ⟨t, ht, rfl, rfl⟩, orError_eq_ok]
  exact h.lookup_stored ht

theorem Config.Sound.mem_entries (h : c.Sound unmarshal) {t : TenantConfig} (ht : t ∈ c.tenants)
    {e : Sigma fun _ : Bytes => Bucket} : e ∈ (fill ∅ (bucketEntries (t.stored unmarshal))).entries ↔
      e.2 ∈ t.stored unmarshal ∧ e.2.name = e.1 := by
  rw [← h.lookup_stored ht]
  exact AList.mem_lookup_iff.symm

theorem Config.Sound.listBuckets_listed (h : c.Sound unmarshal) {t : TenantConfig} (ht : t ∈ c.tenants) :
    ∃ entries, (c.store unmarshal).listBuckets t.name = .ok entries ∧ (entries.map (·.name)).Nodup ∧
      ∀ entry, entry ∈ entries ↔ ∃ bucket, (c.store unmarshal).getBucket t.name entry.name = .ok bucket ∧
        entry.createdAt = bucket.createdAt := by
  have htable := h.lookup_tenants.mpr ⟨t, ht, rfl, rfl⟩
  refine ⟨(fill ∅ (bucketEntries (t.stored unmarshal))).entries.map fun e => ⟨e.2.name, e.2.createdAt⟩, ?_, ?_, ?_⟩
  · rw [ConfigStore.listBuckets, htable]
    rfl
  · -- the names are the keys of the table, and those are distinct
    have hkeys : (fill ∅ (bucketEntries (t.stored unmarshal))).entries.map (fun e => e.2.name) =
        (fill ∅ (bucketEntries (t.stored unmarshal))).keys :=
      List.map_congr_left fun e he => ((h.mem_entries ht).mp he).2
    rw [List.map_map]
    exact hkeys ▸ AList.keys_nodup _
  · intro entry
    simp only [List.mem_map, h.mem_entries ht, h.getBucket_of_mem ht]
    constructor
    · rintro ⟨e, ⟨hstored, -⟩, rfl⟩
      exact ⟨e.2, ⟨hstored, rfl⟩, rfl⟩
    · rintro ⟨bucket, ⟨hstored, hname⟩, hcreated⟩
      refine ⟨⟨bucket.name, bucket⟩, ⟨hstored, rfl⟩, ?_⟩
      rw [hname, ← hcreated]

theorem Config.Sound.consistent (h : c.Sound unmarshal) : (c.store unmarshal).Consistent c where
  key t ht u hu k hk _ := orError_eq_ok.mpr (h.lookup_keys.mpr ⟨t, ht, u, hu, k, hk, rfl, rfl⟩)
  noKey id _ hnone := by
    apply orError_eq_error
    intro key hkey
    obtain ⟨t, ht, u, hu, k, hk, rfl, -⟩ := h.lookup_keys.mp hkey
    exact hnone t ht (List.mem_flatMap.mpr ⟨u, hu, List.mem_map.mpr ⟨k, hk, rfl⟩⟩)
  bucket tenant name bucket := by
    rw [h.getBucket_eq_ok, ConfigStore.getBucketByName, orError_eq_ok, h.lookup_byName]
    constructor
    · rintro ⟨t, ht, rfl, hstored, hname⟩
      exact ⟨⟨t, ht, hstored, hname⟩, t.tenant_of_stored (h.buckets t ht) hstored⟩
    · rintro ⟨⟨t, ht, hstored, hname⟩, rfl⟩
      exact ⟨t, ht, (t.tenant_of_stored (h.buckets t ht) hstored).symm, hstored, hname⟩
  listed t ht := h.listBuckets_listed ht
  unlisted tenant hnone := by
    have htable : ∀ buckets, (c.store unmarshal).tenants.lookup tenant ≠ some buckets := by
      intro buckets hbuckets
      obtain ⟨t, ht, hname, -⟩ := h.lookup_tenants.mp hbuckets
      exact hnone t ht hname
    have hempty := Option.eq_none_iff_forall_ne_some.mpr htable
    constructor
    · rw [ConfigStore.listBuckets, hempty]
      rfl
    · intro name
      rw [ConfigStore.getBucket, hempty]
      rfl

/-! ### As the gateway sees it -/

/-- The part of a bucket the gateway reads; `none` where there is no backend. -/
def Bucket.toGateway (b : Bucket) : Option S3gw.Bucket :=
  b.backend.map fun backend =>
    { tenant := b.tenant, name := b.name, backend := backend.toBackend, policyText := b.policyText, policy := b.policy,
      cors := b.cors }

theorem Config.Sound.toGateway_isSome (h : c.Sound unmarshal) {t : TenantConfig} (ht : t ∈ c.tenants) {bucket : Bucket}
    (hbucket : bucket ∈ t.stored unmarshal) : bucket.toGateway.isSome = true := by
  obtain ⟨b, hb, hstore⟩ := (mem_mapM (t.mapM_stored (h.buckets t ht))).mp hbucket
  rw [Bucket.toGateway, Option.isSome_map, (storeBucket_eq_ok hstore).2.2]
  exact (h.buckets t ht b hb).backend

def Config.Sound.gatewayStore (h : c.Sound unmarshal) : S3gw.Store where
  getBucket tenant name := do
    let bucket ← (c.store unmarshal).getBucket tenant name
    orError bucket.toGateway .other
  getBucketByName name := do
    let bucket ← (c.store unmarshal).getBucketByName name
    orError bucket.toGateway .other
  listBuckets := (c.store unmarshal).listBuckets
  getBucket_tenant {tenant name b} hget := by
    obtain ⟨bucket, hbucket, hb⟩ := bind_eq_ok.mp hget
    have htenant := ((h.consistent.bucket tenant name bucket).mp hbucket).2
    obtain ⟨backend, -, rfl⟩ := Option.map_eq_some_iff.mp (orError_eq_ok.mp hb)
    exact htenant

theorem Config.Sound.gatewayStore_getBucket (h : c.Sound unmarshal) (tenant name : Bytes) :
    (∃ b, h.gatewayStore.getBucket tenant name = .ok b) ∨ h.gatewayStore.getBucket tenant name = .error .notFound := by
  cases hget : (c.store unmarshal).getBucket tenant name with
  | error e =>
    have he : e = .notFound := failsWith_orError (P := (· = StoreError.notFound)) rfl e hget
    right
    simp only [Config.Sound.gatewayStore, hget, he]
    rfl
  | ok bucket =>
    left
    obtain ⟨t, ht, -, hstored, -⟩ := h.getBucket_eq_ok.mp hget
    obtain ⟨b, hb⟩ := Option.isSome_iff_exists.mp (h.toGateway_isSome ht hstored)
    refine ⟨b, bind_eq_ok.mpr ⟨bucket, hget, orError_eq_ok.mpr hb⟩⟩

/-! ## A validated configuration gives a consistent store -/

variable (unmarshal c) in
/-- A configuration with no error, or with none but unknown actions, gives a consistent store;
    it has no error at all when actions are not checked. -/
theorem newConfigStore_consistent (h : ∀ e ∈ c.validate unmarshal, e.isUnknownAction = true) :
    (∃ s, newConfigStore unmarshal c = .ok s ∧ s.Consistent c) ∧ c.validateWith unmarshal none = none := by
  obtain ⟨seen, hcollect⟩ := Config.collect_of_validateWith h
  have hsound := Config.sound_of_collect hcollect
  exact ⟨⟨c.store unmarshal, newConfigStore_eq hsound, hsound.consistent⟩,
    Config.validateWith_none_of_collect hcollect⟩

end Sound

/-! ## Loading -/

section Load

variable [Unicode] (unmarshal : Bytes → Option JsonDocument)

/-- The unknown actions `LoadConfig` warns about. -/
def ConfigError.warnings : ConfigError → List UnknownAction
  | .unknownActions errs => errs
  | _ => []

/-- `LoadConfig` once the file is decoded: the configuration and the warnings. -/
def loadConfig (c : Config) : Except ConfigError (Config × List UnknownAction) :=
  let c := c.setDefaults
  match c.validate unmarshal with
  | none => .ok (c, [])
  | some e => if c.strictActions || !e.isUnknownAction then .error e else .ok (c, e.warnings)

theorem sound_of_loadConfig {c c' : Config} {warnings : List UnknownAction}
    (h : loadConfig unmarshal c = .ok (c', warnings)) : c'.Sound unmarshal := by
  have hvalid : ∀ e ∈ c'.validate unmarshal, e.isUnknownAction = true := by
    unfold loadConfig at h
    dsimp only at h
    split at h
    · rename_i hnone
      cases h
      rw [hnone]
      nofun
    · rename_i e he
      split at h
      · cases h
      · rename_i hunknown
        cases h
        rw [he]
        intro e' he'
        cases he'
        have hlenient : c.setDefaults.strictActions = false ∧ e.isUnknownAction = true := by simpa using hunknown
        exact hlenient.2
  obtain ⟨seen, hcollect⟩ := Config.collect_of_validateWith hvalid
  exact Config.sound_of_collect hcollect

end Load

/-- Two tenants, one of whose users has a policy with a misspelt action. -/
def misspeltConfig : Config :=
  let backend : BackendConfig :=
    { endpoint := str "http://s3.example", region := [], bucket := [], accessKeyID := [], secretAccessKey := []
      usePathStyle := none }
  { listen := []
    circuitBreaker := none
    strictActions := false
    tenants := [
      { name := str "ta"
        users := [⟨str "alice", [⟨str "AKA", str "sa"⟩], [⟨str "Allow", [str "s3:GetObjekt"]⟩]⟩]
        buckets := [⟨str "photos", some backend, [], [], none⟩] },
      { name := str "tb"
        users := [⟨str "bob", [⟨str "AKB", str "sb"⟩, ⟨str "AKC", str "sc"⟩], []⟩]
        buckets := [⟨str "logs", some backend, [], [], none⟩] }] }

theorem misspeltConfig_consistent :
    let _ := asciiTables
    misspeltConfig.validate (fun _ => none) ≠ none ∧
      (∃ s, newConfigStore (fun _ => none) misspeltConfig = .ok s ∧ s.Consistent misspeltConfig) ∧
        misspeltConfig.validateWith (fun _ => none) none = none := by
  let _ := asciiTables
  have hunknown : (misspeltConfig.validate fun _ => none).any (·.isUnknownAction) = true := by decide +kernel
  obtain ⟨e, he, hunknown⟩ := (Option.any_eq_true _ _).mp hunknown
  refine ⟨by simp [he], newConfigStore_consistent (fun _ => none) misspeltConfig fun e' he' => ?_⟩
  rw [he] at he'
  cases he'
  exact hunknown

end S3Gateway.S3rp
