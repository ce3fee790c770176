import S3Gateway.Cors.Rules
import S3Gateway.Policy.Evaluators
import S3Gateway.S3op.Catalog
import S3Gateway.S3err.Error
import S3Gateway.Go.Http
import S3Gateway.Go.Date

/-! # The gateway's data

Store definitions, the verified requester and the operation record the hooks see.  Opaque metadata a store attaches and creation times are left out: no
modelled function reads them. -/

namespace S3Gateway.S3gw

open Go S3err S3op

/-! ## Definitions from the store -/

/-- `store.Backend`; the secret and the addressing style only configure the client. -/
structure Backend where
  endpoint : Bytes
  region : Bytes
  bucket : Bytes
  accessKeyID : Bytes
deriving DecidableEq

def Backend.isHTTPS [Unicode] (b : Backend) : Bool :=
  b.endpoint == [] || hasPrefix (toLower b.endpoint) (str "https://")

/-- `store.Bucket`.  The policy is one `Parse` returned. -/
structure Bucket where
  tenant : Bytes
  name : Bytes
  backend : Backend
  policyText : Bytes
  policy : Option Policy.ParsedPolicy
  cors : List Cors.Rule

/-- `store.BucketEntry`; `none` is an unknown creation time. -/
structure BucketEntry where
  name : Bytes
  createdAt : Option Time

/-- `store.Store`, together with the contract of `GetBucket`. -/
structure Store where
  getBucket : Bytes → Bytes → Except StoreError Bucket
  getBucketByName : Bytes → Except StoreError Bucket
  listBuckets : Bytes → Except StoreError (List BucketEntry)
  getBucket_tenant : ∀ {tenant bucket : Bytes} {b : Bucket},
    getBucket tenant bucket = .ok b → b.tenant = tenant

/-! ## The requester and the operation -/

structure VerifiedRequest where
  tenant : Bytes
  user : Bytes
  userPolicy : Option Policy.UserPolicy
  sourceIP : Addr
  payloadHash : Bytes
  signedHeaders : List Bytes

def VerifiedRequest.principal (vr : VerifiedRequest) : Bytes := vr.tenant ++ str "/" ++ vr.user

def VerifiedRequest.requestContext (vr : VerifiedRequest) : Policy.RequestContext :=
  { sourceIP := vr.sourceIP }

/-- `OpRequest`: what the client asked for about the object. -/
structure OpRequest where
  sse : Bytes
  sseKMSKeyID : Bytes
  storageClass : Bytes
  metadata : List (Bytes × Bytes)
deriving DecidableEq

def OpRequest.empty (r : OpRequest) : Bool :=
  r.sse == [] && r.sseKMSKeyID == [] && r.storageClass == [] && r.metadata.isEmpty

/-- `Op` as the hooks are given it, before the operation runs.  `none` for
    `operation` is `OpUnknown`. -/
structure Op where
  method : Bytes
  operation : Option OpName
  actions : List Action
  tenant : Bytes
  user : Bytes
  bucket : Bytes := []
  bucketOwner : Bytes := []
  key : Bytes := []
  request : Option OpRequest := none
deriving DecidableEq

/-- `Denial`: one deciding statement's share of the per-key refusals. -/
structure Denial where
  reason : DenyReason
  keys : Nat
deriving DecidableEq

end S3Gateway.S3gw
