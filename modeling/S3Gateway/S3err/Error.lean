import S3Gateway.Go.Bytes

/-! # Errors

`s3err.Error`, its constructors, and the causes the packages above attach to it. -/

namespace S3Gateway.S3err

open Go

inductive Layer where
  | userPolicy
  | bucketPolicy
  | crossTenant
  | visibility
  | copySource
deriving DecidableEq

/-- What `GetBucket` and its kin can fail with; `notFound` wraps `ErrNotFound`. -/
inductive StoreError where
  | notFound
  | other
deriving DecidableEq

structure DenyReason where
  layer : Layer
  statement : Int
  sid : Bytes := []
  principal : Bytes
  action : Bytes := []
  resource : Bytes := []
  err : Option StoreError := none
deriving DecidableEq

/-- `AuthFailure.Reason`. -/
inductive AuthReason where
  | noAuth
  | unknownKey
  | invalidToken
  | signatureMismatch
  | unsignedHeaders
  | expired
  | notYetValid
  | timeSkewed
  | postPolicy
deriving DecidableEq

/-- The `cause` behind an error, which only the observer sees.  Of an authentication
    failure the detail text is left out. -/
inductive Cause where
  | none
  | auth (reason : AuthReason) (accessKeyID : Bytes)
  | denied (reason : DenyReason)
  | store (err : StoreError)
  | other
deriving DecidableEq

/-- `s3err.Error`. -/
structure S3Error where
  status : Nat
  code : Bytes
  message : Bytes
  resource : Bytes := []
  cause : Cause := .none
deriving DecidableEq

def S3Error.withCause (e : S3Error) (c : Cause) : S3Error := { e with cause := c }

def accessDenied : S3Error :=
  { status := 403, code := str "AccessDenied", message := str "Access Denied" }

def notImplemented (what : Bytes) : S3Error :=
  { status := 501, code := str "NotImplemented", message := what ++ str " is not implemented" }

def internalError (cause : Cause) (what : Bytes) : S3Error :=
  { status := 500, code := str "InternalError", message := what, cause }

def invalidArgument (message : Bytes) : S3Error :=
  { status := 400, code := str "InvalidArgument", message }

def invalidRequest (message : Bytes) : S3Error :=
  { status := 400, code := str "InvalidRequest", message }

def malformedXML : S3Error :=
  { status := 400, code := str "MalformedXML",
    message := str ("The XML you provided was not well-formed or did not validate against " ++
      "our published schema.") }

def contentSHA256Mismatch : S3Error :=
  { status := 400, code := str "XAmzContentSHA256Mismatch",
    message := str "The provided 'x-amz-content-sha256' header does not match what was computed." }

def invalidAccessKeyID : S3Error :=
  { status := 403, code := str "InvalidAccessKeyId",
    message := str "The AWS Access Key Id you provided does not exist in our records." }

def signatureDoesNotMatch : S3Error :=
  { status := 403, code := str "SignatureDoesNotMatch",
    message := str ("The request signature we calculated does not match the signature you " ++
      "provided. Check your key and signing method.") }

end S3Gateway.S3err
