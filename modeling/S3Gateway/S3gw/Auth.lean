import S3Gateway.S3gw.Context
import S3Gateway.Go.Http

/-! # Who asks, and for which bucket

The identity behind a verified POST form (`auth.go`) and `resolveBucket`: the
requester's own bucket, or another tenant's whose policy mentions the requester. -/

namespace S3Gateway.S3gw

open Go S3err Fallible

def remoteIP (r : Request) : Addr :=
  ((parseAddrPort r.remoteAddr).or (parseAddr r.remoteAddr)).getD .zero

section

variable [Unicode] (g : Gateway)

def verifyPostRequest (r : Request) (fields : Sigv4.Fields) :
    Except S3Error (VerifiedRequest × Sigv4.PostPolicy) := do
  let (verified, pp) ← Sigv4.verifyPost g.postCodec g.verifier fields
  let key := g.identity verified.accessKeyID (fields.value (str "x-amz-security-token"))
  .ok ({ tenant := key.tenant, user := key.user, userPolicy := key.policy, sourceIP := remoteIP r,
         payloadHash := verified.payloadHash, signedHeaders := [] }, pp)

def resolveBucket (vr : VerifiedRequest) (bucket : Bytes) : Except S3Error Bucket :=
  match g.store.getBucket vr.tenant bucket with
  | .ok b => .ok b
  | .error .other => .error (internalError (.store .other) (str "bucket lookup failed"))
  | .error .notFound =>
    match g.store.getBucketByName bucket with
    | .error .notFound => .error (accessDenied.withCause (.store .notFound))
    | .error .other => .error (internalError (.store .other) (str "bucket lookup failed"))
    | .ok b =>
      if b.policy.any (·.policy.mentionsPrincipal vr.principal) then .ok b
      else .error (accessDenied.withCause (.denied (visibilityReason vr.principal bucket)))

/-- `g.backendClient(ctx, b.Backend)`, of which only the failure matters. -/
def checkClient (b : Bucket) : Except S3Error Unit :=
  require (g.clientFails b.backend = false) (internalError .other (str "backend client failed"))

end

end S3Gateway.S3gw
