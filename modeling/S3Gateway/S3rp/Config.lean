import S3Gateway.Go.UrlParse
import S3Gateway.Policy.ActionCheck
import S3Gateway.S3gw.Types

/-! # The configuration

`Config` and the definitions below it, their defaults, and what `store/validate.go` checks of
a single name or backend. -/

namespace S3Gateway.S3rp

open Go

/-! ## Definitions -/

/-- `BackendConfig`, the whole of `store.Backend`. -/
structure BackendConfig extends S3gw.Backend where
  secretAccessKey : Bytes
  usePathStyle : Option Bool

structure KeyConfig where
  accessKeyID : Bytes
  secretAccessKey : Bytes

structure UserConfig where
  name : Bytes
  keys : List KeyConfig
  policy : List Policy.ActionStatement

structure BucketConfig where
  name : Bytes
  backend : Option BackendConfig
  policy : Bytes
  cors : List Cors.Rule
  createdAt : Option Time

structure TenantConfig where
  name : Bytes
  users : List UserConfig
  buckets : List BucketConfig

structure CircuitBreakerConfig where
  failures : Int
  cooldown : Int

structure Config where
  listen : Bytes
  circuitBreaker : Option CircuitBreakerConfig
  strictActions : Bool
  tenants : List TenantConfig

/-! ## Defaults -/

def BackendConfig.setDefaults (b : BackendConfig) (bucketName : Bytes) : BackendConfig where
  endpoint := b.endpoint
  region := if b.region = [] then str "us-east-1" else b.region
  bucket := if b.bucket = [] then bucketName else b.bucket
  accessKeyID := b.accessKeyID
  secretAccessKey := b.secretAccessKey
  usePathStyle := b.usePathStyle.or (some (b.endpoint ≠ []))

def BucketConfig.setDefaults (b : BucketConfig) : BucketConfig :=
  { b with backend := b.backend.map (·.setDefaults b.name) }

def Config.setDefaults (c : Config) : Config :=
  { c with
    listen := if c.listen = [] then str ":8080" else c.listen
    tenants := c.tenants.map fun t => { t with buckets := t.buckets.map BucketConfig.setDefaults } }

/-! ## Single definitions -/

/-- `bucketNameRegexp.MatchString(name)`. -/
def isBucketName (name : Bytes) : Bool :=
  3 ≤ name.length && name.length ≤ 63 && name.all (fun b => Policy.isNameStart b || b == ch '-') &&
    name.head?.all Policy.isNameStart && name.getLast?.all Policy.isNameStart

inductive BackendError where
  | endpoint
  | scheme (endpoint : Bytes)
  | credentials
deriving DecidableEq

/-- `Backend.Validate()`; `none` is the nil error. -/
def BackendConfig.validate (b : BackendConfig) : Option BackendError :=
  let endpointError :=
    if b.endpoint = [] then none
    else
      match parseURL b.endpoint with
      | none => some .endpoint
      | some u => if u.scheme ≠ str "http" ∧ u.scheme ≠ str "https" then some (.scheme b.endpoint) else none
  endpointError.or <|
    if (b.accessKeyID == []) != (b.secretAccessKey == []) then some .credentials else none

inductive CircuitBreakerError where
  | failures
  | cooldown
deriving DecidableEq

def CircuitBreakerConfig.validate (c : CircuitBreakerConfig) : Option CircuitBreakerError :=
  if c.failures < 1 then some .failures else if c.cooldown ≤ 0 then some .cooldown else none

/-! ## Where a bucket is kept -/

/-- The bucket on the backend: its own name unless the definition has another. -/
def BackendConfig.backendBucket (b : BackendConfig) (name : Bytes) : Bytes := if b.bucket = [] then name else b.bucket

/-- The key `validateBucket` records a backend bucket under. -/
def BackendConfig.target (b : BackendConfig) (name : Bytes) : Bytes := b.endpoint ++ [0] ++ b.backendBucket name

end S3Gateway.S3rp
