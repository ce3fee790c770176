import S3Gateway.Go.Date
import S3Gateway.S3gw.Dispatch
import S3Gateway.S3gw.ObjectUrl
import S3Gateway.S3gw.Outputs
import S3Gateway.S3xml.Documents

/-! # What a handler writes

The second half of every handler: from the output of the backend to the header, the status
and the body of the response.  Names of buckets, owners and regions come from the gateway's
own definitions; storage classes, encryption keys and checksums pass through the mappers and
the checksum policy, whose client side is in this module and nowhere else. -/

namespace S3Gateway.S3gw

open Go S3err S3op Interaction S3xml

/-! ## The response -/

inductive Body where
  | empty
  | bytes (content : Bytes)
  | document (d : Document)

structure Written where
  header : Header
  status : Nat := 200
  body : Body := .empty

/-- `s3xml.Write(w, v)`. -/
def writeXML (h : Header) (d : Document) : Written where
  header := h.set (str "Content-Type") (str "application/xml")
  body := .document d

def setOpt (h : Header) (name : Bytes) (v : Option Bytes) : Header := v.elim h (h.set name)

def setNonempty (h : Header) (name v : Bytes) : Header := if v ≠ [] then h.set name v else h

/-- `h[key] = []string{v}`: the key as it is. -/
def setRaw (h : Header) (key v : Bytes) : Header := h.filter (·.1 ≠ key) ++ [(key, v)]

/-! ## The client's side of the gateway -/

/-- What the gateway tells its clients by: the region of `SetRegion`, the `ToClient` of the
    two mappers, and whether the connection is encrypted. -/
structure Front where
  region : Bytes
  classToClient : Op → Bytes → Bytes
  keyToClient : Op → Bytes → Bytes
  tls : Bool

def Front.frontRegion (front : Front) : Bytes :=
  if front.region ≠ [] then front.region else str "us-east-1"

def tenantOwner (tenant : Bytes) : Owner := { id := tenant, displayName := tenant }

/-- `checksumsFrom..(x)`: the values that are there. -/
def checksumsFrom (x : ChecksumFields) : ChecksumValues :=
  Algorithm.all.filterMap fun a =>
    match x a with
    | some v => if v = [] then none else some (a, v)
    | none => none

/-- `v[a.Name]`. -/
def ChecksumValues.value (v : ChecksumValues) (a : Algorithm) : Bytes := (v.lookup a).getD []

def ChecksumPolicy.offered (p : ChecksumPolicy) (v : ChecksumValues) : ChecksumValues :=
  v.filter fun (a, _) => p.support a ≠ .refused

def xmlChecksums (v : ChecksumValues) : Checksums := v.value

/-- `s3xml.FormatTime(*t)`, empty for a time that is not there. -/
def formatTime (t : Option Time) : Bytes := t.elim [] formatMillis

/-- `strings.Trim(s, "\"")`. -/
def trimQuotes (s : Bytes) : Bytes :=
  ((s.dropWhile (· = ch '"')).reverse.dropWhile (· = ch '"')).reverse

section Client

variable [Unicode]

/-- `checksum.SetHeaders(h, v, checksumType)`. -/
def setChecksums (h : Header) (v : ChecksumValues) (checksumType : Bytes) : Header :=
  setNonempty (Algorithm.all.foldl (fun h a => setNonempty h a.header (v.value a)) h)
    (str "x-amz-checksum-type") checksumType

variable (front : Front) (c : OpCtx)

def clientStorageClass (backendClass : Bytes) : Bytes :=
  if c.g.storageClass.isSome then front.classToClient c.op backendClass else backendClass

def clientKMSKeyID (keyID : Option Bytes) : Option Bytes :=
  match keyID with
  | none => none
  | some id => if c.g.kmsKey.isSome then present (front.keyToClient c.op id) else some id

def setSSEHeaders (h : Header) (e : Encryption) : Header :=
  setOpt (setNonempty h hdrSSE e.serverSideEncryption) hdrSSEKMSKeyID
    (clientKMSKeyID front c e.sseKMSKeyId)

def setChecksumHeaders (h : Header) (x : ChecksumFields) (checksumType : Bytes) : Header :=
  setChecksums h (c.g.checksums.offered (checksumsFrom x)) checksumType

def reportChecksums (x : ChecksumFields) : Checksums :=
  xmlChecksums (c.g.checksums.offered (checksumsFrom x))

def reportAlgorithm (name : Bytes) : Bytes :=
  if name = [] ∨ c.g.checksums.supportOf name = .refused then [] else name

def reportAlgorithms (algs : List Bytes) : List Bytes :=
  (algs.map (reportAlgorithm c)).filter (· ≠ [])

end Client

/-! ## Objects -/

section Objects

variable [Unicode] (front : Front) (c : OpCtx) (h : Header)

def setObjectHeaders (out : ObjectOutput) : Header :=
  let h := setOpt h (str "Content-Type") out.contentType
  let h := setOpt h (str "Content-Length") (out.contentLength.map formatInt)
  let h := setOpt h (str "ETag") out.etag
  let h := setOpt h (str "Last-Modified") (out.lastModified.map formatHTTP)
  let h := setOpt h (str "Cache-Control") out.cacheControl
  let h := setOpt h (str "Content-Disposition") out.contentDisposition
  let h := setOpt h (str "Content-Encoding") out.contentEncoding
  let h := setOpt h (str "Content-Language") out.contentLanguage
  let h := setOpt h (str "Expires") out.expiresString
  let h := setNonempty h hdrStorageClass (clientStorageClass front c out.storageClass)
  let h := setOpt h (str "x-amz-version-id") out.versionId
  let h := setSSEHeaders front c h out.encryption
  out.metadata.foldl (fun h (k, v) => setRaw h (amzMetaPrefix ++ toLower k) v) h

def setObjectLockResponseHeaders (lock : ObjectLock) : Header :=
  let h := setNonempty h hdrObjectLockMode lock.mode
  let h := setOpt h hdrObjectLockRetainUntil (lock.retainUntilDate.map formatRFC3339)
  setNonempty h hdrObjectLockLegalHold lock.legalHoldStatus

def getObjectResponse (out : GetObjectOutput) : Written :=
  let h := setObjectHeaders front c h out.toObjectOutput
  let h := setOpt h (str "Accept-Ranges") out.acceptRanges
  let h := setOpt h (str "x-amz-tagging-count") (out.tagCount.map formatInt)
  let h := setOpt h (str "x-amz-mp-parts-count") (out.partsCount.map formatInt)
  let h := setChecksumHeaders c h out.checksum out.checksumType
  let h := setObjectLockResponseHeaders h out.lock
  { header := setOpt h (str "Content-Range") out.contentRange
    status := if out.contentRange.isSome then 206 else 200
    body := .bytes out.body }

def headObjectResponse (out : ObjectOutput) : Written :=
  let h := setObjectHeaders front c h out
  let h := setOpt h (str "Accept-Ranges") out.acceptRanges
  let h := setOpt h (str "x-amz-mp-parts-count") (out.partsCount.map formatInt)
  let h := setChecksumHeaders c h out.checksum out.checksumType
  { header := setObjectLockResponseHeaders h out.lock }

def putObjectResponse (out : PutObjectOutput) : Written :=
  let h := setOpt h (str "ETag") out.etag
  let h := setOpt h (str "x-amz-version-id") out.versionId
  let h := setSSEHeaders front c h out.encryption
  { header := setChecksumHeaders c h out.checksum out.checksumType }

/-- `"true"` for a flag that is set. -/
def setFlag (name : Bytes) (flag : Option Bool) : Header :=
  if flag = some true then h.set name (str "true") else h

def deleteObjectResponse (out : DeleteObjectOutput) : Written :=
  let h := setOpt h (str "x-amz-version-id") out.versionId
  { header := setFlag h (str "x-amz-delete-marker") out.deleteMarker, status := 204 }

def attributesParts (parts : SdkObjectParts) : ObjectAttributeParts where
  isTruncated := parts.isTruncated.getD false
  maxParts := parts.maxParts
  nextPartNumberMarker := toStr parts.nextPartNumberMarker
  partNumberMarker := toStr parts.partNumberMarker
  partsCount := parts.totalPartsCount
  parts := parts.parts.map fun p =>
    { partNumber := p.partNumber.getD 0, size := p.size.getD 0, checksums := reportChecksums c p.checksum }

def getObjectAttributesResponse (out : GetObjectAttributesOutput) : Written :=
  let h := setOpt h (str "Last-Modified") (out.lastModified.map formatHTTP)
  let h := setOpt h (str "x-amz-version-id") out.versionId
  let h := setFlag h (str "x-amz-delete-marker") out.deleteMarker
  writeXML h <| .getObjectAttributesResult
    { etag := out.etag.elim [] trimQuotes
      checksum := out.checksum.map fun (x, checksumType) =>
        { checksums := reportChecksums c x, checksumType }
      objectParts := out.objectParts.map (attributesParts c)
      storageClass := clientStorageClass front c out.storageClass
      objectSize := out.objectSize }

/-! ## Copies and parts -/

def copyObjectResponse (out : CopyObjectOutput) : Written :=
  let h := setOpt h (str "x-amz-version-id") out.versionId
  let h := setSSEHeaders front c h out.encryption
  let h := setOpt h (str "x-amz-copy-source-version-id") out.copySourceVersionId
  writeXML h <| .copyObjectResult <|
    match out.copyObjectResult with
    | none => {}
    | some cr =>
      { etag := toStr cr.etag, lastModified := formatTime cr.lastModified,
        checksumType := cr.checksumType, checksums := reportChecksums c cr.checksum }

def uploadPartCopyResponse (out : UploadPartCopyOutput) : Written :=
  let h := setOpt h (str "x-amz-copy-source-version-id") out.copySourceVersionId
  let h := setSSEHeaders front c h out.encryption
  writeXML h <| .copyPartResult <|
    match out.copyPartResult with
    | none => {}
    | some cr =>
      { etag := toStr cr.etag, lastModified := formatTime cr.lastModified,
        checksums := reportChecksums c cr.checksum }

def createMultipartUploadResponse (out : CreateMultipartUploadOutput) : Written :=
  let h := setNonempty h (str "x-amz-checksum-algorithm") (reportAlgorithm c out.checksumAlgorithm)
  let h := setNonempty h (str "x-amz-checksum-type") out.checksumType
  let h := setSSEHeaders front c h out.encryption
  writeXML h <| .initiateMultipartUploadResult
    { bucket := c.cfg.name, key := c.key, uploadId := toStr out.uploadId }

def uploadPartResponse (out : UploadPartOutput) : Written :=
  let h := setOpt h (str "ETag") out.etag
  let h := setSSEHeaders front c h out.encryption
  { header := setChecksumHeaders c h out.checksum [] }

/-- `objectURL(r, rt.target, key)`, for the target the request addressed. -/
def objectLocation : Bytes :=
  (requestTarget c.g.vhostSuffix c.r).elim [] fun t => objectURL front.tls c.r t c.key

def completeMultipartUploadResponse (out : CompleteMultipartUploadOutput) : Written :=
  let h := setOpt h (str "x-amz-version-id") out.versionId
  let h := setSSEHeaders front c h out.encryption
  writeXML h <| .completeMultipartUploadResult
    { location := objectLocation front c
      bucket := c.cfg.name
      key := c.key
      etag := toStr out.etag
      checksums := reportChecksums c out.checksum
      checksumType := out.checksumType }

/-! ## Listings -/

def listedPrefixes (prefixes : List (Option Bytes)) : List Bytes := prefixes.filterMap id

def objectsFromSDK (objects : List SdkObject) (owner : Option Owner) : List Object :=
  objects.map fun obj =>
    { key := toStr obj.key
      lastModified := formatTime obj.lastModified
      etag := toStr obj.etag
      checksumAlgorithm := reportAlgorithms c obj.checksumAlgorithm
      checksumType := obj.checksumType
      size := obj.size.getD 0
      storageClass := clientStorageClass front c obj.storageClass
      owner }

def listObjectsV2Response (out : ListObjectsV2Output) : Written :=
  writeXML h <| .listBucketResult
    { name := c.cfg.name
      keyPrefix := toStr out.keyPrefix
      startAfter := toStr out.startAfter
      -- the request's token, which may be given and empty
      continuationToken := (c.query.valuesOf (str "continuation-token")).head?
      nextContinuationToken := toStr out.nextContinuationToken
      keyCount := out.keyCount.getD 0
      maxKeys := out.maxKeys.getD 0
      delimiter := toStr out.delimiter
      encodingType := out.encodingType
      isTruncated := out.isTruncated.getD false
      contents := objectsFromSDK front c out.contents
        (if c.param (str "fetch-owner") == str "true" then some (tenantOwner c.cfg.tenant) else none)
      commonPrefixes := listedPrefixes out.commonPrefixes }

def listObjectsV1Response (out : ListObjectsOutput) : Written :=
  writeXML h <| .listBucketResultV1
    { name := c.cfg.name
      keyPrefix := toStr out.keyPrefix
      marker := toStr out.marker
      nextMarker := toStr out.nextMarker
      maxKeys := out.maxKeys.getD 0
      delimiter := toStr out.delimiter
      encodingType := out.encodingType
      isTruncated := out.isTruncated.getD false
      contents := objectsFromSDK front c out.contents (some (tenantOwner c.cfg.tenant))
      commonPrefixes := listedPrefixes out.commonPrefixes }

def objectVersion (v : SdkVersion) : ObjectVersion where
  key := toStr v.key
  versionId := toStr v.versionId
  isLatest := v.isLatest.getD false
  lastModified := formatTime v.lastModified
  etag := toStr v.etag
  checksumAlgorithm := reportAlgorithms c v.checksumAlgorithm
  checksumType := v.checksumType
  size := v.size.getD 0
  storageClass := clientStorageClass front c v.storageClass
  owner := some (tenantOwner c.cfg.tenant)

def deleteMarkerEntry (d : SdkDeleteMarker) : DeleteMarkerEntry where
  key := toStr d.key
  versionId := toStr d.versionId
  isLatest := d.isLatest.getD false
  lastModified := formatTime d.lastModified
  owner := some (tenantOwner c.cfg.tenant)

def listObjectVersionsResponse (out : ListObjectVersionsOutput) : Written :=
  writeXML h <| .listVersionsResult
    { name := c.cfg.name
      keyPrefix := toStr out.keyPrefix
      keyMarker := toStr out.keyMarker
      versionIdMarker := toStr out.versionIdMarker
      nextKeyMarker := toStr out.nextKeyMarker
      nextVersionIdMarker := toStr out.nextVersionIdMarker
      maxKeys := out.maxKeys.getD 0
      delimiter := toStr out.delimiter
      encodingType := out.encodingType
      isTruncated := out.isTruncated.getD false
      versions := out.versions.map (objectVersion front c)
      deleteMarkers := out.deleteMarkers.map (deleteMarkerEntry c)
      commonPrefixes := listedPrefixes out.commonPrefixes }

def listedUpload (u : SdkUpload) : Upload where
  key := toStr u.key
  uploadId := toStr u.uploadId
  initiator := some (tenantOwner c.cfg.tenant)
  owner := some (tenantOwner c.cfg.tenant)
  storageClass := clientStorageClass front c u.storageClass
  initiated := formatTime u.initiated
  checksumAlgorithm := reportAlgorithm c u.checksumAlgorithm
  checksumType := u.checksumType

def listMultipartUploadsResponse (out : ListMultipartUploadsOutput) : Written :=
  writeXML h <| .listMultipartUploadsResult
    { bucket := c.cfg.name
      keyMarker := toStr out.keyMarker
      uploadIdMarker := toStr out.uploadIdMarker
      nextKeyMarker := toStr out.nextKeyMarker
      nextUploadIdMarker := toStr out.nextUploadIdMarker
      delimiter := toStr out.delimiter
      keyPrefix := toStr out.keyPrefix
      maxUploads := out.maxUploads.getD 0
      isTruncated := out.isTruncated.getD false
      uploads := out.uploads.map (listedUpload front c)
      commonPrefixes := listedPrefixes out.commonPrefixes }

def listedPart (p : SdkPart) : Part where
  partNumber := p.partNumber.getD 0
  lastModified := formatTime p.lastModified
  etag := toStr p.etag
  size := p.size.getD 0
  checksums := reportChecksums c p.checksum

def listPartsResponse (out : ListPartsOutput) : Written :=
  writeXML h <| .listPartsResult
    { bucket := c.cfg.name
      key := c.key
      uploadId := c.param qpUploadID
      partNumberMarker := toStr out.partNumberMarker
      nextPartNumberMarker := toStr out.nextPartNumberMarker
      maxParts := out.maxParts.getD 0
      isTruncated := out.isTruncated.getD false
      parts := out.parts.map (listedPart c)
      initiator := some (tenantOwner c.cfg.tenant)
      owner := some (tenantOwner c.cfg.tenant)
      storageClass := clientStorageClass front c out.storageClass
      checksumAlgorithm := reportAlgorithm c out.checksumAlgorithm
      checksumType := out.checksumType }

/-! ## Buckets -/

def ownerFullControlPolicy (owner : Bytes) : Document :=
  .accessControlPolicy (tenantOwner owner)
    [{ granteeType := str "CanonicalUser", id := owner, displayName := owner,
       permission := str "FULL_CONTROL" }]

def encryptionRule (rule : SdkEncryptionRule) : ServerSideEncryptionRule where
  byDefault := rule.byDefault.map fun (sseAlgorithm, keyID) =>
    { sseAlgorithm, kmsMasterKeyID := toStr (clientKMSKeyID front c keyID) }
  bucketKeyEnabled := rule.bucketKeyEnabled

def lockConfiguration (configuration : Option SdkLockConfiguration) : Document :=
  match configuration with
  | none => .objectLockConfiguration [] none
  | some l => .objectLockConfiguration l.objectLockEnabled <| (l.rule.bind id).map fun dr =>
      { mode := dr.mode, days := dr.days.getD 0, years := dr.years.getD 0 }

def lockRetention (retention : Option SdkRetention) : Document :=
  match retention with
  | none => .objectLockRetention [] []
  | some r => .objectLockRetention r.mode (formatTime r.retainUntilDate)

/-- `getBucketLocation`'s document. -/
def locationConstraint : Document :=
  let region := front.frontRegion
  .locationConstraint (if region = str "us-east-1" then [] else region)

end Objects

/-! ## The handlers -/

section Handlers

variable [Unicode] (front : Front) (c : OpCtx) (h : Header)

/-- What a handler writes for the output of its call. -/
def Handler.respond (handler : Handler) : SdkOutput → Written
  | .getObject out => getObjectResponse front c h out
  -- the object's ACL only asks whether the object is there
  | .headObject out =>
    if handler = .getObjectACL then writeXML h (ownerFullControlPolicy c.cfg.tenant)
    else headObjectResponse front c h out
  | .getObjectAttributes out => getObjectAttributesResponse front c h out
  | .putObject out => putObjectResponse front c h out
  | .deleteObject out => deleteObjectResponse h out
  | .listObjectsV2 out => listObjectsV2Response front c h out
  | .listObjects out => listObjectsV1Response front c h out
  | .listObjectVersions out => listObjectVersionsResponse front c h out
  | .listMultipartUploads out => listMultipartUploadsResponse front c h out
  | .headBucket _ => { header := h.set (str "x-amz-bucket-region") front.frontRegion }
  | .createMultipartUpload out => createMultipartUploadResponse front c h out
  | .uploadPart out => uploadPartResponse front c h out
  | .completeMultipartUpload out => completeMultipartUploadResponse front c h out
  | .abortMultipartUpload => { header := h, status := 204 }
  | .listParts out => listPartsResponse front c h out
  -- the handler puts the entries it refused itself before these, see `outcome`
  | .deleteObjects deleted errors =>
    writeXML h (.deleteResult ⟨deleted.map SdkDeleted.listed, errors.map SdkDeleteError.listed⟩)
  | .copyObject out => copyObjectResponse front c h out
  | .uploadPartCopy out => uploadPartCopyResponse front c h out
  | .getBucketVersioning status => writeXML h (.versioningConfiguration status)
  | .getBucketEncryption rules => writeXML h
      (.serverSideEncryptionConfiguration ((rules.getD []).map (encryptionRule front c)))
  | .getObjectLockConfiguration configuration => writeXML h (lockConfiguration configuration)
  | .getObjectTagging versionId tagSet =>
    writeXML (setOpt h (str "x-amz-version-id") versionId)
      (.tagging (tagSet.map fun (k, v) => (toStr k, toStr v)))
  | .putObjectTagging versionId => { header := setOpt h (str "x-amz-version-id") versionId }
  | .deleteObjectTagging versionId =>
    { header := setOpt h (str "x-amz-version-id") versionId, status := 204 }
  | .getObjectRetention retention => writeXML h (lockRetention retention)
  | .getObjectLegalHold status => writeXML h (.objectLockLegalHold (toStr status))
  | .putObjectRetention | .putObjectLegalHold => { header := h }

def Handler.respondAlone : Handler → Written
  | .getBucketLocation => writeXML h (locationConstraint front)
  | .getBucketACL => writeXML h (ownerFullControlPolicy c.cfg.tenant)
  | .getBucketPolicy =>
    { header := h.set (str "Content-Type") (str "application/json"), body := .bytes c.cfg.policyText }
  | .getBucketCors => writeXML h (.corsConfiguration c.cfg.cors)
  | .getBucketPolicyStatus => writeXML h (.policyStatus false)
  | .getBucketOwnershipControls => writeXML h (.ownershipControls [str "BucketOwnerEnforced"])
  | .getPublicAccessBlock => writeXML h (.publicAccessBlockConfiguration true true true true)
  | _ => { header := h }

def relayedErrorHeaders : List Bytes :=
  [str "ETag", str "Last-Modified", str "Cache-Control", str "Expires", str "x-amz-delete-marker",
    str "x-amz-version-id"]

def relayErrorHeaders (f : SdkFailure) : Header :=
  match f.header with
  | none => h
  | some header => relayedErrorHeaders.foldl (fun h k => setNonempty h k (header.get k)) h

/-- The handlers that relay headers of a failed call. -/
def Handler.relays : Handler → Bool
  | .getObject | .headObject | .getObjectAttributes => true
  | _ => false

/-- What a handler leaves on the writer: the header it set before it failed, or its response. -/
inductive Outcome where
  | failed (header : Header) (e : S3Error)
  | written (response : Written)

/-- What is on the writer once the handler has returned, given the last reply it got. -/
def Handler.outcome (handler : Handler) (last : Option SdkReply) : HandlerResult → Outcome
  | .error e =>
    match last with
    | some (.error f) => .failed (if handler.relays then relayErrorHeaders h f else h) e
    | _ => .failed h e
  | .ok (.deleteResult result _) => .written (writeXML h (.deleteResult result))
  | .ok _ =>
    match last with
    | some (.ok out) => .written (handler.respond front c h out)
    | _ => .written (handler.respondAlone front c h)

/-- Runs on, told of whole replies and keeping the last one. -/
def Handler.answerFrom (handler : Handler) (last : Option SdkReply) :
    HandlerProg → Prog BackendCall SdkReply Outcome
  | .pure result => .pure (handler.outcome front c h last result)
  | .call i k => .call i fun reply => handler.answerFrom (some reply) (k (actedReply reply))

/-- A handler with what it writes, `h` being the header that is there before it runs. -/
def Handler.answer (handler : Handler) : Prog BackendCall SdkReply Outcome :=
  handler.answerFrom front c h none (handler.run c)

end Handlers

end S3Gateway.S3gw
