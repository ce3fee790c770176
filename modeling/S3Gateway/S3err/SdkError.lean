import S3Gateway.S3err.Error

/-! # Backend errors

`s3err.FromSDKError`: what the client is told when the backend fails.  The code and
the status are the backend's, the message never is. -/

namespace S3Gateway.S3err

open Go

/-- What an error returned by the SDK client carries, as `errors.As` finds it. -/
structure SdkError where
  /-- an error the gateway raised itself while the body was read -/
  own : Option S3Error := none
  /-- the HTTP status of a response error, zero for a transport failure -/
  responseStatus : Option Nat := none
  /-- the code of an API error -/
  apiCode : Option Bytes := none
  /-- the backend's wording, which stays in the cause -/
  apiMessage : Bytes := []
  timedOut : Bool := false

def wellKnownErrorStatus : List (Bytes × Nat) := [
  (str "NoSuchKey", 404),
  (str "NoSuchBucket", 404),
  (str "NotFound", 404),
  (str "ServerSideEncryptionConfigurationNotFoundError", 404),
  (str "AccessDenied", 403),
  (str "PreconditionFailed", 412),
  (str "NotModified", 304),
  (str "InvalidRange", 416)]

def canonicalMessage : List (Bytes × Bytes) := [
  (str "AccessDenied", str "Access Denied"),
  (str "AccountProblem",
    str ("There is a problem with your account that prevents the operation from " ++
      "completing successfully.")),
  (str "BadDigest",
    str ("The Content-MD5 or checksum value that you specified did not match what the " ++
      "server received.")),
  (str "BucketAlreadyExists", str "The requested bucket name is not available."),
  (str "BucketAlreadyOwnedByYou",
    str "The bucket that you tried to create already exists, and you own it."),
  (str "BucketNotEmpty", str "The bucket that you tried to delete is not empty."),
  (str "EntityTooLarge", str "Your proposed upload exceeds the maximum allowed size."),
  (str "EntityTooSmall", str "Your proposed upload is smaller than the minimum allowed size."),
  (str "InternalError", str "We encountered an internal error. Please try again."),
  (str "InvalidArgument", str "Invalid Argument"),
  (str "InvalidBucketName", str "The specified bucket is not valid."),
  (str "InvalidDigest", str "The Content-MD5 or checksum value that you specified is not valid."),
  (str "InvalidObjectState", str "The operation is not valid for the current state of the object."),
  (str "InvalidPart", str "One or more of the specified parts could not be found."),
  (str "InvalidPartOrder",
    str ("The list of parts was not in ascending order. Parts list must be specified in " ++
      "order by part number.")),
  (str "InvalidRange", str "The requested range is not satisfiable."),
  (str "InvalidRequest", str "Invalid Request"),
  (str "InvalidToken", str "The provided token is malformed or otherwise invalid."),
  (str "MalformedXML",
    str ("The XML that you provided was not well formed or did not validate against our " ++
      "published schema.")),
  (str "MethodNotAllowed", str "The specified method is not allowed against this resource."),
  (str "MissingContentLength", str "You must provide the Content-Length HTTP header."),
  (str "NoSuchBucket", str "The specified bucket does not exist."),
  (str "NoSuchBucketPolicy", str "The bucket policy does not exist."),
  (str "NoSuchCORSConfiguration", str "The CORS configuration does not exist."),
  (str "NoSuchKey", str "The specified key does not exist."),
  (str "NoSuchLifecycleConfiguration", str "The lifecycle configuration does not exist."),
  (str "NoSuchUpload",
    str ("The specified multipart upload does not exist. The upload ID might be invalid, " ++
      "or the multipart upload might have been aborted or completed.")),
  (str "NoSuchVersion",
    str "The version ID specified in the request does not match an existing version."),
  (str "NotFound", str "Not Found"),
  (str "NotImplemented",
    str "A header that you provided implies functionality that is not implemented."),
  (str "ObjectLockConfigurationNotFound",
    str "Object Lock configuration does not exist for this bucket."),
  (str "ServerSideEncryptionConfigurationNotFoundError",
    str "The server side encryption configuration was not found"),
  (str "PreconditionFailed",
    str "At least one of the preconditions that you specified did not hold."),
  (str "RequestTimeout",
    str ("Your socket connection to the server was not read from or written to within the " ++
      "timeout period.")),
  (str "ServiceUnavailable", str "Service is unable to handle request."),
  (str "SlowDown", str "Please reduce your request rate."),
  (str "TooManyBuckets", str "You have attempted to create more buckets than allowed.")]

/-- `messageFor(code)`: an unknown code is its own message. -/
def messageFor (code : Bytes) : Bytes := (canonicalMessage.lookup code).getD code

/-- The status and code an SDK error maps to before the timeout check. -/
def fromResponse (err : SdkError) (resource : Bytes) : S3Error :=
  let status := err.responseStatus.filter (100 ≤ ·)
  let base : S3Error :=
    { status := status.getD 502, code := str "InternalError",
      message := str "We encountered an internal error. Please try again.", resource,
      cause := .other }
  match err.apiCode with
  | none => base
  | some code =>
    { base with
      code, message := messageFor code,
      status := status.getD ((wellKnownErrorStatus.lookup code).getD 502) }

def fromSDKError (err : SdkError) (resource : Bytes) : S3Error :=
  match err.own with
  | some own => if own.resource = [] then { own with resource } else own
  | none =>
    let e := fromResponse err resource
    if err.timedOut then
      { e with
        status := 504, code := str "InternalError", message := str "backend request timed out" }
    else e

end S3Gateway.S3err
