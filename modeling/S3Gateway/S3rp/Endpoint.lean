import S3Gateway.S3rp.ConfigStore

/-! # Physical backend buckets

`validateBucket` tells backend buckets apart by the text of their endpoints.  What the texts
denote is the parsed URL in its normal form, and one server has many texts. -/

namespace S3Gateway.S3rp

open Go Policy

/-! ## Servers -/

/-- A URL in its normal form: scheme and host in lower case, the port explicit, and no slash at
    the end of the path, which is the encoded one. -/
structure Server where
  scheme : Bytes
  opaquePart : Bytes
  user : Option Userinfo
  omitHost : Bool
  hostname : Bytes
  port : Bytes
  path : Bytes
  forceQuery : Bool
  rawQuery : Bytes
  fragment : Bytes
  rawFragment : Bytes
deriving DecidableEq

def defaultPort (scheme : Bytes) : Bytes :=
  if scheme = str "http" then str "80" else if scheme = str "https" then str "443" else []

def server (u : FullURL) : Server where
  scheme := u.scheme.map lowerByte
  opaquePart := u.opaquePart
  user := u.user
  omitHost := u.omitHost
  hostname := u.hostname.map lowerByte
  port := if u.port = [] then defaultPort (u.scheme.map lowerByte) else u.port
  path := trimSuffix u.escapedPath (str "/")
  forceQuery := u.forceQuery
  rawQuery := u.rawQuery
  fragment := u.fragment
  rawFragment := u.rawFragment

def denotes (endpoint : Bytes) : Option Server := (parseURL endpoint).map server

/-! ## Buckets of different tenants -/

/-- Two definitions of one backend bucket on one server. -/
structure SamePhysical (b b' : BucketConfig) (backend backend' : BackendConfig) : Prop where
  left : b.backend = some backend
  right : b'.backend = some backend'
  bucket : backend.backendBucket b.name = backend'.backendBucket b'.name
  server : denotes backend.endpoint = denotes backend'.endpoint

/-- No two tenants share a physical backend bucket. -/
def Config.Separated (c : Config) : Prop :=
  c.tenants.Pairwise fun t t' => ∀ b ∈ t.buckets, ∀ b' ∈ t'.buckets, ∀ backend backend',
    ¬SamePhysical b b' backend backend'

def Respelling (endpoint endpoint' : Bytes) : Prop :=
  endpoint ≠ endpoint' ∧ denotes endpoint = denotes endpoint'

/-- Tenants with the name of a backend bucket in common do not write its endpoint in two ways. -/
def Config.SpeltAlike (c : Config) : Prop :=
  c.tenants.Pairwise fun t t' => ∀ b ∈ t.buckets, ∀ b' ∈ t'.buckets, ∀ backend backend',
    b.backend = some backend → b'.backend = some backend' →
      backend.backendBucket b.name = backend'.backendBucket b'.name → ¬Respelling backend.endpoint backend'.endpoint

section Separated

variable [Unicode] {unmarshal : Bytes → Option JsonDocument} {c : Config}

omit [Unicode] in
theorem TenantConfig.mem_targets {t : TenantConfig} {b : BucketConfig} {backend : BackendConfig} (hb : b ∈ t.buckets)
    (hbackend : b.backend = some backend) : (backend.target b.name, t.name) ∈ t.targets := by
  refine List.mem_flatMap.mpr ⟨b, hb, ?_⟩
  simp [BucketConfig.targets, hbackend]

theorem Config.Sound.name_eq_of_target (h : c.Sound unmarshal) {t t' : TenantConfig} (ht : t ∈ c.tenants)
    (ht' : t' ∈ c.tenants) {b b' : BucketConfig} (hb : b ∈ t.buckets) (hb' : b' ∈ t'.buckets)
    {backend backend' : BackendConfig} (hsame : SamePhysical b b' backend backend')
    (hendpoint : backend.endpoint = backend'.endpoint) : t.name = t'.name := by
  have htarget : backend.target b.name = backend'.target b'.name := by
    rw [BackendConfig.target, BackendConfig.target, hendpoint, hsame.bucket]
  have howner := List.mem_flatMap.mpr ⟨t, ht, TenantConfig.mem_targets hb hsame.left⟩
  have howner' := List.mem_flatMap.mpr ⟨t', ht', TenantConfig.mem_targets hb' hsame.right⟩
  rw [htarget] at howner
  exact h.owner howner howner'

/-- A validated configuration keeps the tenants apart exactly when no server is written in two
    ways. -/
theorem validate_separated_iff (h : c.validate unmarshal = none) : c.Separated ↔ c.SpeltAlike := by
  constructor
  · intro hseparated
    refine hseparated.imp fun hnever b hb b' hb' backend backend' hleft hright hbucket hrespelt => ?_
    exact hnever b hb b' hb' backend backend' ⟨hleft, hright, hbucket, hrespelt.2⟩
  · intro hspelt
    obtain ⟨seen, hcollect⟩ := Config.collect_of_validateWith (c := c) (by rw [← Config.validate, h]; nofun)
    have hsound := Config.sound_of_collect hcollect
    have hnames : c.tenants.Pairwise fun t t' => t.name ≠ t'.name := List.pairwise_map.mp hsound.tenantNames
    refine (hspelt.and hnames).imp_of_mem ?_
    rintro t t' ht ht' ⟨halike, hne⟩ b hb b' hb' backend backend' hsame
    -- two texts are excluded, and one text has one owner
    have hendpoint : backend.endpoint = backend'.endpoint := by
      by_contra hdiffer
      exact halike b hb b' hb' backend backend' hsame.left hsame.right hsame.bucket ⟨hdiffer, hsame.server⟩
    exact hne (hsound.name_eq_of_target ht ht' hb hb' hsame hendpoint)

end Separated

/-- Two tenants with the bucket `data`, on endpoints as given. -/
def twoEndpoints (endpoint endpoint' : Bytes) : Config :=
  let backend (endpoint : Bytes) : BackendConfig :=
    { endpoint, region := [], bucket := str "data", accessKeyID := [], secretAccessKey := [], usePathStyle := none }
  { listen := []
    circuitBreaker := none
    strictActions := false
    tenants := [
      { name := str "ta"
        users := [⟨str "alice", [⟨str "AKA", str "sa"⟩], []⟩]
        buckets := [⟨str "photos", some (backend endpoint), [], [], none⟩] },
      { name := str "tb"
        users := [⟨str "bob", [⟨str "AKB", str "sb"⟩], []⟩]
        buckets := [⟨str "logs", some (backend endpoint'), [], [], none⟩] }] }

theorem twoHosts_separated :
    let _ := asciiTables
    let c := twoEndpoints (str "http://a.example") (str "http://b.example")
    c.validate (fun _ => none) = none ∧ c.Separated := by
  intro _ c
  have hvalid : c.validate (fun _ => none) = none := Option.isNone_iff_eq_none.mp (by decide +kernel)
  refine ⟨hvalid, (validate_separated_iff hvalid).mpr ?_⟩
  have hservers : denotes (str "http://a.example") ≠ denotes (str "http://b.example") := by decide +kernel
  refine List.pairwise_pair.mpr fun b hb b' hb' backend backend' hleft hright _ hrespelt => hservers ?_
  cases List.mem_singleton.mp hb
  cases List.mem_singleton.mp hb'
  cases hleft
  cases hright
  exact hrespelt.2

/-- One server, written in two ways: the configuration is accepted and its tenants share a bucket. -/
theorem twoSpellings_shared :
    let _ := asciiTables
    let c := twoEndpoints (str "http://s3.example") (str "http://S3.example:80/")
    c.validate (fun _ => none) = none ∧ ¬c.Separated := by
  intro _ c
  refine ⟨Option.isNone_iff_eq_none.mp (by decide +kernel), fun hseparated => ?_⟩
  have hnever := List.pairwise_pair.mp hseparated
  exact hnever _ List.mem_cons_self _ List.mem_cons_self _ _ ⟨rfl, rfl, rfl, by decide +kernel⟩

end S3Gateway.S3rp
