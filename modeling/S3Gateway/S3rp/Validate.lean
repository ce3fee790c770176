import S3Gateway.Library.Accumulate
import S3Gateway.S3rp.Config

/-! # `Config.Validate`

The validation of a whole configuration.  Names and targets are collected on the way through
all tenants; unknown actions are kept for the end. -/

namespace S3Gateway.S3rp

open Go Fallible Policy

/-! ## What is reported -/

/-- The prefix an unknown action is reported under. -/
inductive PolicyOwner where
  | user (tenant user : Bytes)
  | bucket (tenant bucket : Bytes)
deriving DecidableEq

structure UnknownAction where
  owner : PolicyOwner
  statement : Nat
  sid : Bytes
  pattern : Bytes
deriving DecidableEq

/-- The errors of a configuration, one constructor for each text of the source.  The last ones
    put a prefix in front of another error, or join the unknown actions. -/
inductive ConfigError where
  | noTenants
  | circuitBreaker (e : CircuitBreakerError)
  | tenantName (name : Bytes)
  | duplicateTenant (name : Bytes)
  | noUsers (tenant : Bytes)
  | userName (name : Bytes)
  | duplicateUser (tenant user : Bytes)
  | noKeys
  | incompleteKey
  | duplicateKey (id : Bytes)
  | invalidPolicy (e : Policy.Error Bytes)
  | noBuckets (tenant : Bytes)
  | bucketName (name : Bytes)
  | duplicateBucket (name : Bytes)
  | noBackend (bucket : Bytes)
  | backend (e : BackendError)
  | sharedBackend (bucket backendBucket endpoint owner : Bytes)
  | cors (e : Cors.RuleError)
  | inTenant (tenant : Bytes) (e : ConfigError)
  | inUser (tenant user : Bytes) (e : ConfigError)
  | inBucket (bucket : Bytes) (e : ConfigError)
  | unknownActions (errs : List UnknownAction)

/-- `errors.Is(err, s3op.ErrUnknownAction)`. -/
def ConfigError.isUnknownAction : ConfigError → Bool
  | .invalidPolicy e => e.isUnknownAction
  | .inTenant _ e | .inUser _ _ e | .inBucket _ e => e.isUnknownAction
  | .unknownActions _ => true
  | _ => false

/-! ## Validation -/

structure ConfigNames where
  bucketNames : List Bytes
  keyIDs : List Bytes
  backendOwner : AList fun _ : Bytes => Bytes
  unknownActions : List UnknownAction

namespace ConfigNames

def splitUnknownActions (n : ConfigNames) (err : Option (Policy.Error Bytes)) (owner : PolicyOwner) :
    Except (Policy.Error Bytes) ConfigNames :=
  match err with
  | none => .ok n
  | some (.unknownActions errs) =>
    .ok { n with
      unknownActions := n.unknownActions ++ errs.map fun (i, sid, pattern) => ⟨owner, i, sid, pattern⟩ }
  | some e => .error e

/-- The body of the loop over a user's keys. -/
def validateKey (n : ConfigNames) (k : KeyConfig) : Except ConfigError ConfigNames := do
  require (k.accessKeyID ≠ [] ∧ k.secretAccessKey ≠ []) .incompleteKey
  require (k.accessKeyID ∉ n.keyIDs) (.duplicateKey k.accessKeyID)
  .ok { n with keyIDs := n.keyIDs ++ [k.accessKeyID] }

end ConfigNames

section Validate

variable [Unicode] (unmarshal : Bytes → Option JsonDocument) (check : Option (Bytes → Option Bytes))

/-- `policy.Parse(bucket, text, check)`: the default dialect. -/
def parsePolicy (bucket text : Bytes) : Except (Policy.Error Bytes) Policy.Policy :=
  ({} : Dialect).parse unmarshal bucket text check

namespace ConfigNames

def validateUser (n : ConfigNames) (tenant : Bytes) (u : UserConfig) : Except ConfigError ConfigNames := do
  require (u.keys ≠ []) .noKeys
  let n ← u.keys.foldlM validateKey n
  if u.policy = [] then .ok n
  else do
    let up : UserPolicy := ⟨u.policy⟩
    let n ← (n.splitUnknownActions (validateUserPolicy up check) (.user tenant u.name)).mapError .invalidPolicy
    -- the byte cap applies to the serialized form
    stopOn (errorOf (marshalUserPolicy up)) .invalidPolicy
    .ok n

/-- The part of `validateBucket` about the policy. -/
def validateBucketPolicy (n : ConfigNames) (tenant : Bytes) (b : BucketConfig) : Except ConfigError ConfigNames :=
  if b.policy = [] then .ok n
  else
    (n.splitUnknownActions (errorOf (parsePolicy unmarshal check b.name b.policy)) (.bucket tenant b.name)).mapError
      fun e => .inBucket b.name (.invalidPolicy e)

def validateBucket (n : ConfigNames) (tenant : Bytes) (b : BucketConfig) : Except ConfigError ConfigNames := do
  require (isBucketName b.name) (.bucketName b.name)
  require (b.name ∉ n.bucketNames) (.duplicateBucket b.name)
  let backend ← orError b.backend (.noBackend b.name)
  stopOn backend.validate fun e => .inBucket b.name (.backend e)
  -- two tenants must not target the same physical backend bucket
  let target := backend.target b.name
  stopOn ((n.backendOwner.lookup target).filter (· ≠ tenant))
    fun owner => .sharedBackend b.name (backend.backendBucket b.name) backend.endpoint owner
  let n : ConfigNames :=
    { n with
      bucketNames := n.bucketNames ++ [b.name]
      backendOwner := n.backendOwner.insert target tenant }
  let n ← n.validateBucketPolicy unmarshal check tenant b
  stopOn (b.cors.findSome? Cors.Rule.validate) fun e => .inBucket b.name (.cors e)
  .ok n

/-- The body of the loop over a tenant's users. -/
def validateNamedUser (tenant : Bytes) (seen : List Bytes × ConfigNames) (u : UserConfig) :
    Except ConfigError (List Bytes × ConfigNames) := do
  require (isPrincipalPart u.name) (.inTenant tenant (.userName u.name))
  require (u.name ∉ seen.1) (.duplicateUser tenant u.name)
  let n ← (seen.2.validateUser check tenant u).mapError (.inUser tenant u.name)
  .ok (seen.1 ++ [u.name], n)

def validateTenant (n : ConfigNames) (t : TenantConfig) : Except ConfigError ConfigNames := do
  require (t.users ≠ []) (.noUsers t.name)
  let (_, n) ← t.users.foldlM (validateNamedUser check t.name) ([], n)
  require (t.buckets ≠ []) (.noBuckets t.name)
  t.buckets.foldlM (fun n b => n.validateBucket unmarshal check t.name b) n

/-- The body of the loop over the tenants. -/
def validateNamedTenant (seen : List Bytes × ConfigNames) (t : TenantConfig) :
    Except ConfigError (List Bytes × ConfigNames) := do
  require (isPrincipalPart t.name) (.tenantName t.name)
  require (t.name ∉ seen.1) (.duplicateTenant t.name)
  let n ← seen.2.validateTenant unmarshal check t
  .ok (seen.1 ++ [t.name], n)

end ConfigNames

/-- `Validate` up to the unknown actions: the tenant names and what else was collected. -/
def Config.collect (c : Config) : Except ConfigError (List Bytes × ConfigNames) := do
  require (c.tenants ≠ []) .noTenants
  stopOn (c.circuitBreaker.bind (·.validate)) .circuitBreaker
  c.tenants.foldlM (ConfigNames.validateNamedTenant unmarshal check) ([], ⟨[], [], ∅, []⟩)

/-- `Config.Validate()` with the action checker it passes on; `none` is the nil error. -/
def Config.validateWith (c : Config) : Option ConfigError :=
  match c.collect unmarshal check with
  | .error e => some e
  -- `errors.Join` of no errors is nil
  | .ok (_, n) => if n.unknownActions = [] then none else some (.unknownActions n.unknownActions)

def Config.validate (c : Config) : Option ConfigError := c.validateWith unmarshal (some S3op.checkActionPattern)

end Validate

/-! ## What a run collects -/

/-- The backend bucket of a definition, with its tenant. -/
def BucketConfig.targets (tenant : Bytes) (b : BucketConfig) : List (Bytes × Bytes) :=
  b.backend.toList.map fun backend => (backend.target b.name, tenant)

def UserConfig.keyIDs (u : UserConfig) : List Bytes := u.keys.map (·.accessKeyID)

namespace TenantConfig

def keyIDs (t : TenantConfig) : List Bytes := t.users.flatMap (·.keyIDs)

def bucketNames (t : TenantConfig) : List Bytes := t.buckets.map (·.name)

def targets (t : TenantConfig) : List (Bytes × Bytes) := t.buckets.flatMap (·.targets t.name)

end TenantConfig

/-- Names are added that were not there, and a target keeps its owner. -/
structure Grows (n n' : ConfigNames) (keys buckets : List Bytes) (targets : List (Bytes × Bytes)) : Prop where
  keyIDs : n'.keyIDs = n.keyIDs ++ keys
  keyIDs_nodup : n.keyIDs.Nodup → n'.keyIDs.Nodup
  bucketNames : n'.bucketNames = n.bucketNames ++ buckets
  bucketNames_nodup : n.bucketNames.Nodup → n'.bucketNames.Nodup
  kept : ∀ target owner, n.backendOwner.lookup target = some owner → n'.backendOwner.lookup target = some owner
  owned : ∀ p ∈ targets, n'.backendOwner.lookup p.1 = some p.2

namespace Grows

variable {n n₁ n' : ConfigNames} {keys keys' buckets buckets' : List Bytes} {targets targets' : List (Bytes × Bytes)}

theorem refl (n : ConfigNames) : Grows n n [] [] [] :=
  ⟨by simp, id, by simp, id, fun _ _ => id, List.forall_mem_nil _⟩

theorem trans (h : Grows n n₁ keys buckets targets) (h' : Grows n₁ n' keys' buckets' targets') :
    Grows n n' (keys ++ keys') (buckets ++ buckets') (targets ++ targets') where
  keyIDs := by rw [h'.keyIDs, h.keyIDs, List.append_assoc]
  keyIDs_nodup := h'.keyIDs_nodup ∘ h.keyIDs_nodup
  bucketNames := by rw [h'.bucketNames, h.bucketNames, List.append_assoc]
  bucketNames_nodup := h'.bucketNames_nodup ∘ h.bucketNames_nodup
  kept target owner hn := h'.kept target owner (h.kept target owner hn)
  owned p hp := by
    cases List.mem_append.mp hp with
    | inl hp => exact h'.kept _ _ (h.owned p hp)
    | inr hp => exact h'.owned p hp

theorem of_eq {errs : List UnknownAction} (h : n' = { n with unknownActions := errs }) : Grows n n' [] [] [] := by
  rw [h]
  exact ⟨by simp, id, by simp, id, fun _ _ => id, List.forall_mem_nil _⟩

theorem flatMap_none {ι κ : Type} (is : List ι) : (is.flatMap fun _ => ([] : List κ)) = [] :=
  List.flatMap_eq_nil_iff.mpr fun _ _ => rfl

theorem of_foldlM {σ ι : Type} {step : σ → ι → Except ConfigError σ} (names : σ → ConfigNames)
    {keys buckets : ι → List Bytes} {targets : ι → List (Bytes × Bytes)} {is : List ι} {s s' : σ}
    (h : is.foldlM step s = .ok s')
    (hstep : ∀ s i s', step s i = .ok s' → Grows (names s) (names s') (keys i) (buckets i) (targets i)) :
    Grows (names s) (names s') (is.flatMap keys) (is.flatMap buckets) (is.flatMap targets) := by
  refine Accumulate.foldlM_run (R := fun s is s' => Grows (names s) (names s') (is.flatMap keys) (is.flatMap buckets)
    (is.flatMap targets)) (fun s => Grows.refl (names s)) ?_ h
  intro s i s₁ is s' hi hrest
  exact (hstep s i s₁ hi).trans hrest

end Grows

namespace ConfigNames

theorem splitUnknownActions_eq_ok {n n' : ConfigNames} {err : Option (Policy.Error Bytes)} {owner : PolicyOwner}
    (h : n.splitUnknownActions err owner = .ok n') :
    (∀ e ∈ err, e.isUnknownAction = true) ∧ ∃ errs, n' = { n with unknownActions := errs } := by
  unfold splitUnknownActions at h
  split at h
  · cases h
    exact ⟨nofun, n.unknownActions, rfl⟩
  · cases h
    refine ⟨?_, _, rfl⟩
    intro e he
    cases he
    rfl
  · cases h

theorem validateKey_grows {n n' : ConfigNames} {k : KeyConfig} (h : n.validateKey k = .ok n') :
    Grows n n' [k.accessKeyID] [] [] := by
  simp only [validateKey, bind_eq_ok, require_eq_ok] at h
  obtain ⟨-, -, -, hnew, h⟩ := h
  cases h
  refine ⟨rfl, fun hnodup => ?_, by simp, id, fun _ _ => id, List.forall_mem_nil _⟩
  exact hnodup.append (List.nodup_singleton _) (by simpa using hnew)

section Collected

variable [Unicode] {unmarshal : Bytes → Option JsonDocument} {check : Option (Bytes → Option Bytes)}
  {n n' : ConfigNames} {tenant : Bytes}

theorem validateUser_grows {u : UserConfig} (h : n.validateUser check tenant u = .ok n') :
    Grows n n' u.keyIDs [] [] := by
  simp only [validateUser, bind_eq_ok, require_eq_ok] at h
  obtain ⟨-, -, n₁, hkeys, h⟩ := h
  have hgrows : Grows n n₁ u.keyIDs [] [] := by
    simpa [UserConfig.keyIDs, List.map_eq_flatMap, Grows.flatMap_none] using Grows.of_foldlM id hkeys fun s k s' => validateKey_grows
  split at h
  · cases h
    exact hgrows
  · simp only [bind_eq_ok, mapError_eq_ok, stopOn_eq_ok] at h
    obtain ⟨n₂, hsplit, -, -, h⟩ := h
    cases h
    obtain ⟨-, errs, hn₂⟩ := splitUnknownActions_eq_ok hsplit
    simpa using hgrows.trans (Grows.of_eq hn₂)

theorem validateNamedUser_grows {seen seen' : List Bytes × ConfigNames} {u : UserConfig}
    (h : validateNamedUser check tenant seen u = .ok seen') : Grows seen.2 seen'.2 u.keyIDs [] [] := by
  simp only [validateNamedUser, bind_eq_ok, require_eq_ok, mapError_eq_ok] at h
  obtain ⟨-, -, -, -, n, huser, h⟩ := h
  cases h
  exact validateUser_grows huser

theorem validateBucketPolicy_eq_ok {b : BucketConfig} (h : n.validateBucketPolicy unmarshal check tenant b = .ok n') :
    (b.policy ≠ [] → ∃ p, parsePolicy unmarshal none b.name b.policy = .ok p) ∧
      ∃ errs, n' = { n with unknownActions := errs } := by
  unfold validateBucketPolicy at h
  split at h
  · rename_i hnone
    cases h
    exact ⟨fun hsome => absurd hnone hsome, n.unknownActions, rfl⟩
  · rw [mapError_eq_ok] at h
    obtain ⟨hunknown, hrest⟩ := splitUnknownActions_eq_ok h
    have hparse : ∀ e, parsePolicy unmarshal check b.name b.policy = .error e → e.isUnknownAction = true :=
      fun e he => hunknown e (errorOf_eq_some.mpr he)
    exact ⟨fun _ => Dialect.parse_unchecked hparse, hrest⟩

structure ValidBucket (unmarshal : Bytes → Option JsonDocument) (b : BucketConfig) : Prop where
  backend : b.backend.isSome
  policy : b.policy ≠ [] → ∃ p, parsePolicy unmarshal none b.name b.policy = .ok p

theorem validateBucket_grows {b : BucketConfig} (h : n.validateBucket unmarshal check tenant b = .ok n') :
    Grows n n' [] [b.name] (b.targets tenant) ∧ ValidBucket unmarshal b := by
  simp only [validateBucket, bind_eq_ok, require_eq_ok, orError_eq_ok, stopOn_eq_ok] at h
  obtain ⟨-, -, -, hnew, backend, hbackend, -, -, -, howner, n₁, hpolicy, -, -, h⟩ := h
  cases h
  obtain ⟨hparses, errs, hn₁⟩ := validateBucketPolicy_eq_ok hpolicy
  refine ⟨?_, by simp [hbackend], hparses⟩
  rw [hn₁]
  refine ⟨by simp, id, rfl, fun hnodup => ?_, fun target owner hn => ?_, fun p hp => ?_⟩
  · exact hnodup.append (List.nodup_singleton _) (by simpa using hnew)
  · -- the owner of the bucket's own target was compared with the tenant
    by_cases htarget : target = backend.target b.name
    · rw [htarget] at hn ⊢
      have howner : owner = tenant := by simpa [hn] using howner
      rw [howner]
      exact AList.lookup_insert _
    · rw [AList.lookup_insert_ne htarget]
      exact hn
  · simp only [BucketConfig.targets, hbackend, Option.toList_some, List.map_cons, List.map_nil,
      List.mem_singleton] at hp
    rw [hp]
    exact AList.lookup_insert _

theorem validateTenant_grows {t : TenantConfig} (h : n.validateTenant unmarshal check t = .ok n') :
    Grows n n' t.keyIDs t.bucketNames t.targets ∧ ∀ b ∈ t.buckets, ValidBucket unmarshal b := by
  simp only [validateTenant, bind_eq_ok, require_eq_ok] at h
  obtain ⟨-, -, ⟨userNames, n₁⟩, husers, -, -, hbuckets⟩ := h
  have hkeys : Grows n n₁ t.keyIDs [] [] := by
    simpa [TenantConfig.keyIDs, Grows.flatMap_none] using
      Grows.of_foldlM Prod.snd husers fun s u s' => validateNamedUser_grows
  have hnames : Grows n₁ n' [] t.bucketNames t.targets := by
    simpa [TenantConfig.bucketNames, TenantConfig.targets, List.map_eq_flatMap, Grows.flatMap_none] using
      Grows.of_foldlM id hbuckets fun s b s' hb => (validateBucket_grows hb).1
  refine ⟨by simpa using hkeys.trans hnames, ?_⟩
  exact Accumulate.foldlM_mem (fun s b s' hb => (validateBucket_grows hb).2) hbuckets

theorem validateNamedTenant_eq_ok {seen seen' : List Bytes × ConfigNames} {t : TenantConfig}
    (h : validateNamedTenant unmarshal check seen t = .ok seen') :
    t.name ∉ seen.1 ∧ seen'.1 = seen.1 ++ [t.name] ∧ seen.2.validateTenant unmarshal check t = .ok seen'.2 := by
  simp only [validateNamedTenant, bind_eq_ok, require_eq_ok] at h
  obtain ⟨-, -, -, hnew, n, htenant, h⟩ := h
  cases h
  exact ⟨hnew, rfl, htenant⟩

end Collected

end ConfigNames

/-- What a configuration that was gone through satisfies. -/
structure Config.Sound (unmarshal : Bytes → Option JsonDocument) [Unicode] (c : Config) : Prop where
  tenantNames : (c.tenants.map (·.name)).Nodup
  keyIDs : (c.tenants.flatMap (·.keyIDs)).Nodup
  bucketNames : (c.tenants.flatMap (·.bucketNames)).Nodup
  owner : ∀ {target owner owner'}, (target, owner) ∈ c.tenants.flatMap (·.targets) →
    (target, owner') ∈ c.tenants.flatMap (·.targets) → owner = owner'
  buckets : ∀ t ∈ c.tenants, ∀ b ∈ t.buckets, ConfigNames.ValidBucket unmarshal b

section Sound

variable [Unicode] {unmarshal : Bytes → Option JsonDocument} {check : Option (Bytes → Option Bytes)} {c : Config}

theorem tenantNames_of_foldlM {ts : List TenantConfig} {seen seen' : List Bytes × ConfigNames}
    (h : ts.foldlM (ConfigNames.validateNamedTenant unmarshal check) seen = .ok seen') :
    seen.1.Nodup → (seen.1 ++ ts.map (·.name)).Nodup := by
  refine Accumulate.foldlM_run (R := fun seen ts _ => seen.1.Nodup → (seen.1 ++ ts.map (·.name)).Nodup)
    (fun seen => by simp) ?_ h
  intro seen t seen₁ ts seen' ht hrest hnodup
  obtain ⟨hnew, hnames, -⟩ := ConfigNames.validateNamedTenant_eq_ok ht
  rw [hnames] at hrest
  simpa using hrest (hnodup.append (List.nodup_singleton _) (by simpa using hnew))

theorem Config.sound_of_collect {seen : List Bytes × ConfigNames} (h : c.collect unmarshal check = .ok seen) :
    c.Sound unmarshal := by
  simp only [Config.collect, bind_eq_ok, require_eq_ok, stopOn_eq_ok] at h
  obtain ⟨-, -, -, -, h⟩ := h
  -- everything collected starts from nothing, so the collected lists are those of the configuration
  have hgrows := Grows.of_foldlM Prod.snd h fun seen t seen' ht =>
    (ConfigNames.validateTenant_grows (ConfigNames.validateNamedTenant_eq_ok ht).2.2).1
  refine ⟨?_, ?_, ?_, ?_, ?_⟩
  · simpa using tenantNames_of_foldlM h List.nodup_nil
  · simpa [hgrows.keyIDs] using hgrows.keyIDs_nodup List.nodup_nil
  · simpa [hgrows.bucketNames] using hgrows.bucketNames_nodup List.nodup_nil
  · intro target owner owner' howner howner'
    have hsame : some owner = some owner' :=
      (hgrows.owned (target, owner) howner).symm.trans (hgrows.owned (target, owner') howner')
    exact Option.some.inj hsame
  · exact Accumulate.foldlM_mem (fun seen t seen' ht =>
      (ConfigNames.validateTenant_grows (ConfigNames.validateNamedTenant_eq_ok ht).2.2).2) h

end Sound

/-! ## Without the action check -/

def ConfigNames.silent (n : ConfigNames) : ConfigNames := { n with unknownActions := [] }

section Silent

variable [Unicode] {unmarshal : Bytes → Option JsonDocument} {check : Option (Bytes → Option Bytes)}
  {n n' : ConfigNames} {tenant : Bytes}

namespace ConfigNames

omit [Unicode] in
theorem validateKey_silent {k : KeyConfig} (h : n.validateKey k = .ok n') : n.silent.validateKey k = .ok n'.silent := by
  simp only [validateKey, bind_eq_ok, require_eq_ok] at h ⊢
  obtain ⟨_, hcomplete, _, hnew, h⟩ := h
  cases h
  exact ⟨(), hcomplete, (), hnew, rfl⟩

theorem validateUser_silent {u : UserConfig} (h : n.validateUser check tenant u = .ok n') :
    n.silent.validateUser none tenant u = .ok n'.silent := by
  simp only [validateUser, bind_eq_ok, require_eq_ok] at h ⊢
  obtain ⟨_, hsome, n₁, hkeys, h⟩ := h
  refine ⟨(), hsome, n₁.silent, Accumulate.foldlM_image silent (fun _ _ _ => validateKey_silent) hkeys, ?_⟩
  split at h
  · rename_i hnone
    cases h
    rw [if_pos hnone]
  · rename_i hpolicy
    rw [if_neg hpolicy]
    simp only [bind_eq_ok, mapError_eq_ok, stopOn_eq_ok] at h ⊢
    obtain ⟨n₂, hsplit, _, hsize, h⟩ := h
    cases h
    obtain ⟨hunknown, errs, hn₂⟩ := splitUnknownActions_eq_ok hsplit
    refine ⟨n'.silent, ?_, (), hsize, rfl⟩
    rw [validateUserPolicy_unchecked hunknown, hn₂]
    rfl

theorem validateBucketPolicy_silent {b : BucketConfig} (h : n.validateBucketPolicy unmarshal check tenant b = .ok n') :
    n.silent.validateBucketPolicy unmarshal none tenant b = .ok n'.silent := by
  obtain ⟨hparses, errs, hn'⟩ := validateBucketPolicy_eq_ok h
  rw [validateBucketPolicy, hn']
  split
  · rfl
  · rename_i hpolicy
    obtain ⟨p, hp⟩ := hparses hpolicy
    rw [hp]
    rfl

theorem validateBucket_silent {b : BucketConfig} (h : n.validateBucket unmarshal check tenant b = .ok n') :
    n.silent.validateBucket unmarshal none tenant b = .ok n'.silent := by
  simp only [validateBucket, bind_eq_ok, require_eq_ok, orError_eq_ok, stopOn_eq_ok] at h ⊢
  obtain ⟨_, hname, _, hnew, backend, hbackend, _, hvalid, _, howner, n₁, hpolicy, _, hcors, h⟩ := h
  cases h
  exact ⟨(), hname, (), hnew, backend, hbackend, (), hvalid, (), howner, n'.silent,
    validateBucketPolicy_silent hpolicy, (), hcors, rfl⟩

theorem validateNamedUser_silent {seen seen' : List Bytes × ConfigNames} {u : UserConfig}
    (h : validateNamedUser check tenant seen u = .ok seen') :
    validateNamedUser none tenant (seen.map id silent) u = .ok (seen'.map id silent) := by
  simp only [validateNamedUser, bind_eq_ok, require_eq_ok, mapError_eq_ok] at h ⊢
  obtain ⟨_, hname, _, hnew, n, huser, h⟩ := h
  cases h
  exact ⟨(), hname, (), hnew, n.silent, validateUser_silent huser, rfl⟩

theorem validateTenant_silent {t : TenantConfig} (h : n.validateTenant unmarshal check t = .ok n') :
    n.silent.validateTenant unmarshal none t = .ok n'.silent := by
  simp only [validateTenant, bind_eq_ok, require_eq_ok] at h ⊢
  obtain ⟨_, husers, ⟨userNames, n₁⟩, hrun, _, hbuckets, hrest⟩ := h
  refine ⟨(), husers, (userNames, n₁.silent), ?_, (), hbuckets, ?_⟩
  · exact Accumulate.foldlM_image (Prod.map id silent) (fun _ _ _ => validateNamedUser_silent) hrun
  · exact Accumulate.foldlM_image silent (fun _ _ _ => validateBucket_silent) hrest

theorem validateNamedTenant_silent {seen seen' : List Bytes × ConfigNames} {t : TenantConfig}
    (h : validateNamedTenant unmarshal check seen t = .ok seen') :
    validateNamedTenant unmarshal none (seen.map id silent) t = .ok (seen'.map id silent) := by
  simp only [validateNamedTenant, bind_eq_ok, require_eq_ok] at h ⊢
  obtain ⟨_, hname, _, hnew, n, htenant, h⟩ := h
  cases h
  exact ⟨(), hname, (), hnew, n.silent, validateTenant_silent htenant, rfl⟩

end ConfigNames

theorem Config.validateWith_none_of_collect {c : Config} {seen : List Bytes × ConfigNames}
    (h : c.collect unmarshal check = .ok seen) : c.validateWith unmarshal none = none := by
  have hsilent : c.collect unmarshal none = .ok (seen.map id ConfigNames.silent) := by
    simp only [Config.collect, bind_eq_ok, require_eq_ok, stopOn_eq_ok] at h ⊢
    obtain ⟨_, htenants, _, hbreaker, h⟩ := h
    refine ⟨(), htenants, (), hbreaker, ?_⟩
    exact Accumulate.foldlM_image (Prod.map id ConfigNames.silent)
      (fun _ _ _ => ConfigNames.validateNamedTenant_silent) h
  rw [Config.validateWith, hsilent]
  rfl

end Silent

/-! ## Errors on the way -/

/-- No unknown action is reported before everything else was checked. -/
def ConfigError.IsStructural (e : ConfigError) : Prop := e.isUnknownAction = false

section Errors

variable [Unicode] {unmarshal : Bytes → Option JsonDocument} {check : Option (Bytes → Option Bytes)}

namespace ConfigNames

omit [Unicode] in
theorem failsWith_splitUnknownActions (n : ConfigNames) (err : Option (Policy.Error Bytes)) (owner : PolicyOwner) :
    FailsWith Policy.Error.IsStructural (n.splitUnknownActions err owner) := by
  unfold splitUnknownActions
  split
  · exact failsWith_ok _
  · exact failsWith_ok _
  · rename_i e hknown
    apply failsWith_error
    cases e with
    | unknownActions errs => exact absurd rfl (hknown errs)
    | _ => rfl

omit [Unicode] in
theorem failsWith_validateKey (n : ConfigNames) (k : KeyConfig) :
    FailsWith ConfigError.IsStructural (n.validateKey k) := by
  refine (failsWith_require (by rfl)).bind fun _ => ?_
  refine (failsWith_require (by rfl)).bind fun _ => failsWith_ok _

theorem failsWith_validateUser (n : ConfigNames) (tenant : Bytes) (u : UserConfig) :
    FailsWith ConfigError.IsStructural (n.validateUser check tenant u) := by
  refine (failsWith_require (by rfl)).bind fun _ => ?_
  refine (Accumulate.failsWith_foldlM failsWith_validateKey n).bind fun n => ?_
  split
  · exact failsWith_ok n
  · refine FailsWith.bind ((n.failsWith_splitUnknownActions _ _).mapError fun e he => he) fun n => ?_
    refine FailsWith.bind ?_ fun _ => failsWith_ok n
    -- the size of a policy says nothing of its actions
    unfold marshalUserPolicy
    dsimp only
    split
    · exact failsWith_error rfl
    · exact failsWith_ok ()

theorem failsWith_validateBucket (n : ConfigNames) (tenant : Bytes) (b : BucketConfig) :
    FailsWith ConfigError.IsStructural (n.validateBucket unmarshal check tenant b) := by
  refine (failsWith_require (by rfl)).bind fun _ => ?_
  refine (failsWith_require (by rfl)).bind fun _ => ?_
  refine (failsWith_orError (by rfl)).bind fun backend => ?_
  refine (failsWith_stopOn fun e => by rfl).bind fun _ => ?_
  refine (failsWith_stopOn fun e => by rfl).bind fun _ => ?_
  refine FailsWith.bind ?_ fun n => ?_
  · unfold validateBucketPolicy
    split
    · exact failsWith_ok _
    · exact (failsWith_splitUnknownActions _ _ _).mapError fun e he => he
  · exact (failsWith_stopOn fun e => by rfl).bind fun _ => failsWith_ok n

theorem failsWith_validateNamedUser (tenant : Bytes) (seen : List Bytes × ConfigNames) (u : UserConfig) :
    FailsWith ConfigError.IsStructural (validateNamedUser check tenant seen u) := by
  refine (failsWith_require (by rfl)).bind fun _ => ?_
  refine (failsWith_require (by rfl)).bind fun _ => ?_
  exact FailsWith.bind ((failsWith_validateUser _ _ _).mapError fun e he => he) fun n => failsWith_ok _

theorem failsWith_validateTenant (n : ConfigNames) (t : TenantConfig) :
    FailsWith ConfigError.IsStructural (n.validateTenant unmarshal check t) := by
  refine (failsWith_require (by rfl)).bind fun _ => ?_
  refine (Accumulate.failsWith_foldlM (failsWith_validateNamedUser t.name) _).bind fun _ => ?_
  refine (failsWith_require (by rfl)).bind fun _ => ?_
  exact Accumulate.failsWith_foldlM (fun n b => n.failsWith_validateBucket t.name b) _

theorem failsWith_validateNamedTenant (seen : List Bytes × ConfigNames) (t : TenantConfig) :
    FailsWith ConfigError.IsStructural (validateNamedTenant unmarshal check seen t) := by
  refine (failsWith_require (by rfl)).bind fun _ => ?_
  refine (failsWith_require (by rfl)).bind fun _ => ?_
  exact (failsWith_validateTenant _ t).bind fun n => failsWith_ok _

end ConfigNames

theorem Config.failsWith_collect (c : Config) : FailsWith ConfigError.IsStructural (c.collect unmarshal check) := by
  refine (failsWith_require (by rfl)).bind fun _ => ?_
  refine (failsWith_stopOn fun e => by rfl).bind fun _ => ?_
  exact Accumulate.failsWith_foldlM ConfigNames.failsWith_validateNamedTenant _

/-- No error, or unknown actions alone: the whole configuration was gone through. -/
theorem Config.collect_of_validateWith {c : Config}
    (h : ∀ e ∈ c.validateWith unmarshal check, e.isUnknownAction = true) :
    ∃ seen, c.collect unmarshal check = .ok seen := by
  cases hcollect : c.collect unmarshal check with
  | ok seen => exact ⟨seen, rfl⟩
  | error e =>
    have hunknown : e.isUnknownAction = true := h e (by rw [validateWith, hcollect]; rfl)
    rw [c.failsWith_collect e hcollect] at hunknown
    cases hunknown

end Errors

end S3Gateway.S3rp
