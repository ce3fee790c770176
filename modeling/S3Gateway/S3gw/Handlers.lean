import S3Gateway.S3gw.DeleteObjects

/-! # Operation handlers

Each handler of `s3gw` as a program over the backend.  Most read the request, build
one input and make one call: `proxied` is that shape, and the `...Input` function
before it builds the input.  Responses are rendered from the backend's answer alone
and are left out. -/

namespace S3Gateway.S3gw

open Go S3err S3op

def qpUploadID : Bytes := str "uploadId"
def qpPartNumber : Bytes := str "partNumber"
def qpListType : Bytes := str "list-type"
def qpVersionID : Bytes := str "versionId"

section

variable [Unicode] (c : OpCtx)

/-- One backend call with the input, unless building it failed. -/
def proxied (input : Except S3Error BackendInput) : HandlerProg :=
  match input with
  | .error e => refuse e
  | .ok i =>
    .call { client := c.cfg.backend, input := i } fun reply =>
      match reply with
      | .error e => refuse (fromSDKError e c.r.url.path)
      | .ok _ => .pure (.ok .rendered)

/-- `r.URL.Query().Get(name)`. -/
def OpCtx.param (name : Bytes) : Bytes := c.r.url.query.get name

def OpCtx.versionId : Option Bytes := present (c.param qpVersionID)

def OpCtx.pageSize (name : Bytes) : Except S3Error (Option Int) :=
  parsePresent (c.param name) (parseInt 10 32)
    (invalidArgument (str "Argument " ++ name ++ str " must be an integer."))

/-! ## Reads -/

def applyPartNumber : Except S3Error (Option Int) :=
  let outOfRange := invalidArgument
    (str "Part number must be an integer between 1 and 10000, inclusive") |>.withCause .other
  parsePresent (c.param qpPartNumber)
    (fun v => (parseInt 10 32 v).filter fun n => 1 ≤ n ∧ n ≤ 10000) outOfRange

def checksumModeEnabled : Bool := equalFold (c.signed (str "x-amz-checksum-mode")) (str "enabled")

def getObjectInput : Except S3Error BackendInput := do
  let partNumber ← applyPartNumber c
  .ok <| .getObject
    { bucket := c.cfg.backend.bucket
      key := c.key
      conditionals := conditionalHeaders c
      range := present (c.attr (str "Range"))
      checksumModeEnabled := checksumModeEnabled c
      versionId := c.versionId
      partNumber
      responseContentType := present (c.param (str "response-content-type"))
      responseContentDisposition := present (c.param (str "response-content-disposition"))
      responseCacheControl := present (c.param (str "response-cache-control"))
      responseContentEncoding := present (c.param (str "response-content-encoding"))
      responseContentLanguage := present (c.param (str "response-content-language"))
      responseExpires := lenientTime c.dec.httpTime (c.param (str "response-expires")) }

def headObjectInput : Except S3Error BackendInput := do
  let partNumber ← applyPartNumber c
  .ok <| .headObject
    { bucket := c.cfg.backend.bucket
      key := c.key
      conditionals := conditionalHeaders c
      range := present (c.attr (str "Range"))
      checksumModeEnabled := checksumModeEnabled c
      versionId := c.versionId
      partNumber }

/-- `getObjectACL` only asks whether the object exists. -/
def getObjectACLInput : BackendInput :=
  .headObject { bucket := c.cfg.backend.bucket, key := c.key, versionId := c.versionId }

def objectAttributesFromHeader : List Bytes :=
  (c.hdr.signedValues (str "x-amz-object-attributes")).flatMap fun v =>
    ((split (ch ',') v).map trimSpace).filter (· ≠ [])

def getObjectAttributesInput : Except S3Error BackendInput := do
  let attrs := objectAttributesFromHeader c
  if attrs = [] then
    .error (invalidArgument (str ("The x-amz-object-attributes header specifying the attributes " ++
      "to be retrieved is required.")))
  else do
    let maxParts ← parsePresent (c.signed (str "x-amz-max-parts")) (parseInt 10 32)
      (invalidArgument (str "x-amz-max-parts must be an integer") |>.withCause .other)
    .ok <| .getObjectAttributes
      { bucket := c.cfg.backend.bucket
        key := c.key
        objectAttributes := attrs
        versionId := c.versionId
        maxParts
        partNumberMarker := present (c.signed (str "x-amz-part-number-marker")) }

def listFields : ListInput where
  bucket := c.cfg.backend.bucket
  keyPrefix := present (c.param (str "prefix"))
  delimiter := present (c.param (str "delimiter"))
  encodingType := c.param (str "encoding-type")

def listObjectsV2Input : Except S3Error BackendInput := do
  let maxKeys ← c.pageSize (str "max-keys")
  .ok <| .listObjectsV2 (listFields c) maxKeys (present (c.param (str "continuation-token")))
    (present (c.param (str "start-after"))) (c.param (str "fetch-owner") == str "true")

def listObjectsV1Input : Except S3Error BackendInput := do
  let maxKeys ← c.pageSize (str "max-keys")
  .ok <| .listObjects (listFields c) maxKeys (present (c.param (str "marker")))

def listObjectVersionsInput : Except S3Error BackendInput := do
  let maxKeys ← c.pageSize (str "max-keys")
  .ok <| .listObjectVersions (listFields c) maxKeys (present (c.param (str "key-marker")))
    (present (c.param (str "version-id-marker")))

def listMultipartUploadsInput : Except S3Error BackendInput := do
  let maxUploads ← c.pageSize (str "max-uploads")
  .ok <| .listMultipartUploads (listFields c) maxUploads (present (c.param (str "key-marker")))
    (present (c.param (str "upload-id-marker")))

def listPartsInput : Except S3Error BackendInput := do
  let maxParts ← c.pageSize (str "max-parts")
  .ok <| .listParts c.cfg.backend.bucket c.key (c.param qpUploadID) maxParts
    (present (c.param (str "part-number-marker")))

/-! ## Writes -/

def putObjectInput : Except S3Error BackendInput := do
  let (body, length) ← requestBody c
  let contentMD5 ← contentMD5Header c
  let encryption ← c.applySSE c.hdr
  let cs := checksumsFromHeaders c.r.header
  .ok <| .putObject
    { bucket := c.cfg.backend.bucket
      key := c.key
      body
      contentLength := some length
      ifMatch := present (c.attr (str "If-Match"))
      ifNoneMatch := present (c.attr (str "If-None-Match"))
      contentType := present (c.attr (str "Content-Type"))
      contentMD5
      cacheControl := present (c.attr (str "Cache-Control"))
      contentDisposition := present (c.attr (str "Content-Disposition"))
      contentEncoding :=
        present (contentEncodingWithoutAWSChunked (c.attr (str "Content-Encoding")))
      contentLanguage := present (c.attr (str "Content-Language"))
      expires := lenientTime c.dec.httpTime (c.attr (str "Expires"))
      storageClass := c.backendStorageClass (c.signed hdrStorageClass) length
      tagging := present (c.signed hdrTagging)
      encryption
      lock := objectLockHeaders c
      metadata := c.hdr.amzMeta
      checksums := cs
      checksumAlgorithm := uploadChecksumAlgorithm c cs }

def createMultipartUploadInput : Except S3Error BackendInput := do
  let checksumAlgorithm ← c.checksumAlgorithm
  let encryption ← c.applySSE c.hdr
  .ok <| .createMultipartUpload
    { bucket := c.cfg.backend.bucket
      key := c.key
      contentType := present (c.attr (str "Content-Type"))
      cacheControl := present (c.attr (str "Cache-Control"))
      contentDisposition := present (c.attr (str "Content-Disposition"))
      contentEncoding :=
        present (contentEncodingWithoutAWSChunked (c.attr (str "Content-Encoding")))
      contentLanguage := present (c.attr (str "Content-Language"))
      expires := lenientTime c.dec.httpTime (c.attr (str "Expires"))
      storageClass := c.backendStorageClass (c.signed hdrStorageClass) sizeUnknown
      tagging := present (c.signed hdrTagging)
      lock := objectLockHeaders c
      metadata := c.hdr.amzMeta
      checksumAlgorithm
      checksumType := toUpper (c.signed (str "x-amz-checksum-type"))
      encryption }

/-- The part number of an upload, which must be given. -/
def partNumberArg : Except S3Error Int :=
  (parseInt 10 32 (c.param qpPartNumber)).elim
    (.error (invalidArgument (str "Argument partNumber must be an integer."))) .ok

def uploadPartInput : Except S3Error BackendInput := do
  let partNumber ← partNumberArg c
  let (body, length) ← requestBody c
  let contentMD5 ← contentMD5Header c
  let cs := checksumsFromHeaders c.r.header
  .ok <| .uploadPart
    { bucket := c.cfg.backend.bucket
      key := c.key
      uploadId := c.param qpUploadID
      partNumber
      body
      contentLength := length
      contentMD5
      checksums := cs
      checksumAlgorithm := uploadChecksumAlgorithm c cs }

def completeMultipartUploadInput : Except S3Error BackendInput := do
  let parts ← readXMLBody c c.dec.xmlComplete
  if parts.isEmpty then .error (invalidRequest (str "You must specify at least one part"))
  else do
    failWith (parts.findSome? fun p => c.checkChecksums p.checksums)
    .ok <| .completeMultipartUpload
      { bucket := c.cfg.backend.bucket
        key := c.key
        uploadId := c.param qpUploadID
        parts
        ifMatch := present (c.attr (str "If-Match"))
        ifNoneMatch := present (c.attr (str "If-None-Match"))
        checksumType := toUpper (c.signed (str "x-amz-checksum-type"))
        checksums := checksumsFromHeaders c.r.header
        mpuObjectSize :=
          let v := c.signed (str "x-amz-mp-object-size")
          if v = [] then none else parseInt 10 64 v }

def copyObjectInput : Except S3Error BackendInput := do
  let checksumAlgorithm ← c.checksumAlgorithm
  let encryption ← c.applySSE c.hdr
  .ok <| .copyObject
    { bucket := c.cfg.backend.bucket
      key := c.key
      copySource := c.copySource
      metadataDirective := c.signed (str "x-amz-metadata-directive")
      contentType := present (c.attr (str "Content-Type"))
      storageClass := c.backendStorageClass (c.signed hdrStorageClass) sizeUnknown
      checksumAlgorithm
      taggingDirective := c.signed (str "x-amz-tagging-directive")
      tagging := present (c.signed hdrTagging)
      lock := objectLockHeaders c
      metadata := c.hdr.amzMeta
      copySourceIfMatch := present (c.signed (str "x-amz-copy-source-if-match"))
      copySourceIfNoneMatch := present (c.signed (str "x-amz-copy-source-if-none-match"))
      copySourceIfModifiedSince :=
        lenientTime c.dec.httpTime (c.signed (str "x-amz-copy-source-if-modified-since"))
      copySourceIfUnmodifiedSince :=
        lenientTime c.dec.httpTime (c.signed (str "x-amz-copy-source-if-unmodified-since"))
      encryption }

def uploadPartCopyInput : Except S3Error BackendInput := do
  let partNumber ← partNumberArg c
  .ok <| .uploadPartCopy
    { bucket := c.cfg.backend.bucket
      key := c.key
      uploadId := c.param qpUploadID
      partNumber
      copySource := c.copySource
      copySourceRange := present (c.signed (str "x-amz-copy-source-range")) }

def deleteObjectInput : Except S3Error BackendInput := do
  let ifMatchLastModifiedTime ← parsePresent (c.signed (str "x-amz-if-match-last-modified-time"))
    c.dec.httpTime (invalidArgument
      (str "x-amz-if-match-last-modified-time must be a valid HTTP date") |>.withCause .other)
  let ifMatchSize ← parsePresent (c.signed (str "x-amz-if-match-size")) (parseInt 10 64)
    (invalidArgument (str "x-amz-if-match-size must be an integer") |>.withCause .other)
  .ok <| .deleteObject
    { bucket := c.cfg.backend.bucket
      key := c.key
      versionId := c.versionId
      bypassGovernanceRetention := bypassGovernanceRetention c.hdr
      ifMatch := present (c.attr (str "If-Match"))
      ifMatchLastModifiedTime
      ifMatchSize }

def putObjectTaggingInput : Except S3Error BackendInput := do
  let tags ← readXMLBody c c.dec.xmlTagging
  .ok (.putObjectTagging c.cfg.backend.bucket c.key tags c.versionId)

def putObjectRetentionInput : Except S3Error BackendInput := do
  let req ← readXMLBody c c.dec.xmlRetention
  let retainUntilDate ← parsePresent req.retainUntilDate
    (fun v => (c.dec.lockTime v).or (c.dec.rfc3339 v))
    (invalidRequest (str "invalid RetainUntilDate"))
  .ok <| .putObjectRetention
    { bucket := c.cfg.backend.bucket
      key := c.key
      mode := req.mode
      retainUntilDate
      versionId := c.versionId
      bypassGovernanceRetention := bypassGovernanceRetention c.hdr }

def putObjectLegalHoldInput : Except S3Error BackendInput := do
  let status ← readXMLBody c c.dec.xmlLegalHold
  .ok (.putObjectLegalHold c.cfg.backend.bucket c.key status c.versionId)

end

/-! ## The handlers of the route tables -/

inductive Handler where
  | listMultipartUploads | getBucketLocation | getBucketACL | getBucketPolicy | getBucketCors
  | getObjectLockConfiguration | getBucketVersioning | getBucketEncryption
  | getBucketPolicyStatus | getBucketOwnershipControls | getPublicAccessBlock
  | listObjectVersions | listObjectsV2 | listObjectsV1 | headBucket | deleteObjects
  | listParts | getObjectTagging | getObjectACL | getObjectRetention | getObjectLegalHold
  | getObjectAttributes | getObject | headObject | putObjectTagging | putObjectRetention
  | putObjectLegalHold | uploadPartOrCopy | putObjectOrCopy | abortMultipartUpload
  | deleteObjectTagging | deleteObject | createMultipartUpload | completeMultipartUpload
  | rejectACL
  | notImplemented (name : OpName)
  | unknownOperation (what : Bytes)
deriving DecidableEq

section

variable [Unicode] (c : OpCtx)

/-- `getBucketPolicy` answers from the store. -/
def getBucketPolicy : HandlerProg :=
  if c.cfg.policyText = [] then
    refuse { status := 404, code := str "NoSuchBucketPolicy",
             message := str "The bucket policy does not exist" }
  else .pure (.ok .rendered)

def getBucketCors : HandlerProg :=
  if c.cfg.cors.isEmpty then
    refuse { status := 404, code := str "NoSuchCORSConfiguration",
             message := str "The CORS configuration does not exist" }
  else .pure (.ok .rendered)

/-- `handle(g, c)`. -/
def Handler.run : Handler → HandlerProg
  | listMultipartUploads => proxied c (listMultipartUploadsInput c)
  | getBucketPolicy => S3gw.getBucketPolicy c
  | getBucketCors => S3gw.getBucketCors c
  -- these describe every bucket alike, without asking the backend
  | getBucketLocation | getBucketACL | getBucketPolicyStatus | getBucketOwnershipControls
  | getPublicAccessBlock => .pure (.ok .rendered)
  | getObjectLockConfiguration =>
    proxied c (.ok (.getObjectLockConfiguration c.cfg.backend.bucket))
  | getBucketVersioning => proxied c (.ok (.getBucketVersioning c.cfg.backend.bucket))
  | getBucketEncryption => proxied c (.ok (.getBucketEncryption c.cfg.backend.bucket))
  | listObjectVersions => proxied c (listObjectVersionsInput c)
  | listObjectsV2 => proxied c (listObjectsV2Input c)
  | listObjectsV1 => proxied c (listObjectsV1Input c)
  | headBucket => proxied c (.ok (.headBucket c.cfg.backend.bucket))
  | deleteObjects => S3gw.deleteObjects c
  | listParts => proxied c (listPartsInput c)
  | getObjectTagging => proxied c (.ok (.getObjectTagging c.cfg.backend.bucket c.key c.versionId))
  | getObjectACL => proxied c (.ok (getObjectACLInput c))
  | getObjectRetention =>
    proxied c (.ok (.getObjectRetention c.cfg.backend.bucket c.key c.versionId))
  | getObjectLegalHold =>
    proxied c (.ok (.getObjectLegalHold c.cfg.backend.bucket c.key c.versionId))
  | getObjectAttributes => proxied c (getObjectAttributesInput c)
  | getObject => proxied c (getObjectInput c)
  | headObject => proxied c (headObjectInput c)
  | putObjectTagging => proxied c (putObjectTaggingInput c)
  | putObjectRetention => proxied c (putObjectRetentionInput c)
  | putObjectLegalHold => proxied c (putObjectLegalHoldInput c)
  | uploadPartOrCopy =>
    proxied c (if c.copySource ≠ [] then uploadPartCopyInput c else uploadPartInput c)
  | putObjectOrCopy =>
    proxied c (if c.copySource ≠ [] then copyObjectInput c else putObjectInput c)
  | abortMultipartUpload =>
    proxied c (.ok (.abortMultipartUpload c.cfg.backend.bucket c.key (c.param qpUploadID)))
  | deleteObjectTagging =>
    proxied c (.ok (.deleteObjectTagging c.cfg.backend.bucket c.key c.versionId))
  | deleteObject => proxied c (deleteObjectInput c)
  | createMultipartUpload => proxied c (createMultipartUploadInput c)
  | completeMultipartUpload => proxied c (completeMultipartUploadInput c)
  | rejectACL => refuse errACLNotSupported
  | notImplemented name => refuse (S3err.notImplemented name.name)
  | unknownOperation what => refuse (S3err.notImplemented what)

end

end S3Gateway.S3gw
