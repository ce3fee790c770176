import S3Gateway.S3gw.Backend

/-! # What the backend answers

The outputs of the SDK with the fields the handlers read and, besides, those that tell of
the backend itself: the bucket's name there, the accounts, the region, the location.  A value
the SDK gives by pointer is an `Option`. -/

namespace S3Gateway.S3gw

open Go S3err

/-- The value of each checksum algorithm, a field each. -/
abbrev ChecksumFields := Algorithm → Option Bytes

/-- `types.Owner`: an account of the backend. -/
structure SdkOwner where
  id : Option Bytes
  displayName : Option Bytes

/-- What `GetObject` and `HeadObject` have in common. -/
structure ObjectOutput where
  contentType : Option Bytes := none
  contentLength : Option Int := none
  etag : Option Bytes := none
  lastModified : Option Time := none
  cacheControl : Option Bytes := none
  contentDisposition : Option Bytes := none
  contentEncoding : Option Bytes := none
  contentLanguage : Option Bytes := none
  expiresString : Option Bytes := none
  storageClass : Bytes := []
  versionId : Option Bytes := none
  encryption : Encryption := {}
  metadata : List (Bytes × Bytes) := []
  acceptRanges : Option Bytes := none
  partsCount : Option Int := none
  checksum : ChecksumFields := fun _ => none
  checksumType : Bytes := []
  lock : ObjectLock := {}

structure GetObjectOutput extends ObjectOutput where
  tagCount : Option Int := none
  contentRange : Option Bytes := none
  /-- what `io.Copy` gets of the body before it ends or fails -/
  body : Bytes := []

structure PutObjectOutput where
  etag : Option Bytes
  versionId : Option Bytes
  encryption : Encryption
  checksum : ChecksumFields
  checksumType : Bytes

structure DeleteObjectOutput where
  versionId : Option Bytes
  deleteMarker : Option Bool

structure SdkObject where
  key : Option Bytes
  etag : Option Bytes
  size : Option Int
  lastModified : Option Time
  storageClass : Bytes
  checksumAlgorithm : List Bytes
  checksumType : Bytes
  owner : Option SdkOwner

structure ListObjectsV2Output where
  name : Option Bytes
  keyPrefix : Option Bytes
  delimiter : Option Bytes
  startAfter : Option Bytes
  nextContinuationToken : Option Bytes
  keyCount : Option Int
  maxKeys : Option Int
  encodingType : Bytes
  isTruncated : Option Bool
  contents : List SdkObject
  commonPrefixes : List (Option Bytes)

structure ListObjectsOutput where
  name : Option Bytes
  keyPrefix : Option Bytes
  delimiter : Option Bytes
  marker : Option Bytes
  nextMarker : Option Bytes
  maxKeys : Option Int
  encodingType : Bytes
  isTruncated : Option Bool
  contents : List SdkObject
  commonPrefixes : List (Option Bytes)

structure SdkVersion where
  key : Option Bytes
  versionId : Option Bytes
  isLatest : Option Bool
  lastModified : Option Time
  etag : Option Bytes
  size : Option Int
  storageClass : Bytes
  checksumAlgorithm : List Bytes
  checksumType : Bytes
  owner : Option SdkOwner

structure SdkDeleteMarker where
  key : Option Bytes
  versionId : Option Bytes
  isLatest : Option Bool
  lastModified : Option Time
  owner : Option SdkOwner

structure ListObjectVersionsOutput where
  name : Option Bytes
  keyPrefix : Option Bytes
  delimiter : Option Bytes
  keyMarker : Option Bytes
  versionIdMarker : Option Bytes
  nextKeyMarker : Option Bytes
  nextVersionIdMarker : Option Bytes
  maxKeys : Option Int
  encodingType : Bytes
  isTruncated : Option Bool
  versions : List SdkVersion
  deleteMarkers : List SdkDeleteMarker
  commonPrefixes : List (Option Bytes)

structure SdkUpload where
  key : Option Bytes
  uploadId : Option Bytes
  initiated : Option Time
  storageClass : Bytes
  checksumAlgorithm : Bytes
  checksumType : Bytes
  owner : Option SdkOwner
  initiator : Option SdkOwner

structure ListMultipartUploadsOutput where
  bucket : Option Bytes
  keyMarker : Option Bytes
  uploadIdMarker : Option Bytes
  nextKeyMarker : Option Bytes
  nextUploadIdMarker : Option Bytes
  delimiter : Option Bytes
  keyPrefix : Option Bytes
  maxUploads : Option Int
  isTruncated : Option Bool
  uploads : List SdkUpload
  commonPrefixes : List (Option Bytes)

structure SdkPart where
  partNumber : Option Int
  lastModified : Option Time
  etag : Option Bytes
  size : Option Int
  checksum : ChecksumFields

structure ListPartsOutput where
  bucket : Option Bytes
  storageClass : Bytes
  partNumberMarker : Option Bytes
  nextPartNumberMarker : Option Bytes
  maxParts : Option Int
  isTruncated : Option Bool
  checksumAlgorithm : Bytes
  checksumType : Bytes
  parts : List SdkPart
  owner : Option SdkOwner
  initiator : Option SdkOwner

structure HeadBucketOutput where
  bucketRegion : Option Bytes
  bucketLocationName : Option Bytes

structure CreateMultipartUploadOutput where
  bucket : Option Bytes
  uploadId : Option Bytes
  checksumAlgorithm : Bytes
  checksumType : Bytes
  encryption : Encryption

structure UploadPartOutput where
  etag : Option Bytes
  encryption : Encryption
  checksum : ChecksumFields

structure CompleteMultipartUploadOutput where
  bucket : Option Bytes
  location : Option Bytes
  versionId : Option Bytes
  etag : Option Bytes
  encryption : Encryption
  checksum : ChecksumFields
  checksumType : Bytes

/-- `types.CopyObjectResult` and, without the type, `types.CopyPartResult`. -/
structure SdkCopyResult where
  etag : Option Bytes
  lastModified : Option Time
  checksumType : Bytes
  checksum : ChecksumFields

structure CopyObjectOutput where
  versionId : Option Bytes
  copySourceVersionId : Option Bytes
  encryption : Encryption
  copyObjectResult : Option SdkCopyResult

structure UploadPartCopyOutput where
  copySourceVersionId : Option Bytes
  encryption : Encryption
  copyPartResult : Option SdkCopyResult

/-- `types.ServerSideEncryptionRule`; the default is its algorithm and its key. -/
structure SdkEncryptionRule where
  bucketKeyEnabled : Option Bool
  byDefault : Option (Bytes × Option Bytes)

structure SdkDefaultRetention where
  mode : Bytes
  days : Option Int
  years : Option Int

/-- `types.ObjectLockConfiguration`. -/
structure SdkLockConfiguration where
  objectLockEnabled : Bytes
  /-- the rule, and the default retention it may have -/
  rule : Option (Option SdkDefaultRetention)

structure SdkRetention where
  mode : Bytes
  retainUntilDate : Option Time

structure SdkObjectPart where
  partNumber : Option Int
  size : Option Int
  checksum : ChecksumFields

structure SdkObjectParts where
  isTruncated : Option Bool
  maxParts : Option Int
  nextPartNumberMarker : Option Bytes
  partNumberMarker : Option Bytes
  totalPartsCount : Option Int
  parts : List SdkObjectPart

structure GetObjectAttributesOutput where
  etag : Option Bytes
  versionId : Option Bytes
  lastModified : Option Time
  deleteMarker : Option Bool
  storageClass : Bytes
  objectSize : Option Int
  /-- the values and their type -/
  checksum : Option (ChecksumFields × Bytes)
  objectParts : Option SdkObjectParts

structure SdkDeleted where
  key : Option Bytes
  versionId : Option Bytes
  deleteMarker : Option Bool
  deleteMarkerVersionId : Option Bytes

structure SdkDeleteError where
  key : Option Bytes
  versionId : Option Bytes
  code : Option Bytes
  message : Option Bytes

/-- One constructor per method of `BackendClient`. -/
inductive SdkOutput where
  | getObject (out : GetObjectOutput)
  | headObject (out : ObjectOutput)
  | getObjectAttributes (out : GetObjectAttributesOutput)
  | putObject (out : PutObjectOutput)
  | deleteObject (out : DeleteObjectOutput)
  | listObjectsV2 (out : ListObjectsV2Output)
  | listObjects (out : ListObjectsOutput)
  | listObjectVersions (out : ListObjectVersionsOutput)
  | listMultipartUploads (out : ListMultipartUploadsOutput)
  | headBucket (out : HeadBucketOutput)
  | createMultipartUpload (out : CreateMultipartUploadOutput)
  | uploadPart (out : UploadPartOutput)
  | completeMultipartUpload (out : CompleteMultipartUploadOutput)
  | abortMultipartUpload
  | listParts (out : ListPartsOutput)
  | deleteObjects (deleted : List SdkDeleted) (errors : List SdkDeleteError)
  | copyObject (out : CopyObjectOutput)
  | uploadPartCopy (out : UploadPartCopyOutput)
  | getBucketVersioning (status : Bytes)
  | getBucketEncryption (rules : Option (List SdkEncryptionRule))
  | getObjectLockConfiguration (configuration : Option SdkLockConfiguration)
  | getObjectTagging (versionId : Option Bytes) (tagSet : List (Option Bytes × Option Bytes))
  | putObjectTagging (versionId : Option Bytes)
  | deleteObjectTagging (versionId : Option Bytes)
  | getObjectRetention (retention : Option SdkRetention)
  | putObjectRetention
  | getObjectLegalHold (status : Option Bytes)
  | putObjectLegalHold

/-- An error of the SDK, with the header of the response it carries, if any. -/
structure SdkFailure where
  error : SdkError
  header : Option Header := none

abbrev SdkReply := Except SdkFailure SdkOutput

/-- `aws.ToString(p)`. -/
def toStr (p : Option Bytes) : Bytes := p.getD []

/-! ## What the handlers act on -/

/-- The entries of `DeleteObjects` as its result lists them. -/
def SdkDeleted.listed (d : SdkDeleted) : DeletedObject where
  key := toStr d.key
  versionId := toStr d.versionId
  deleteMarker := d.deleteMarker.getD false
  deleteMarkerVersionId := toStr d.deleteMarkerVersionId

def SdkDeleteError.listed (e : SdkDeleteError) : DeleteError where
  key := toStr e.key
  versionId := toStr e.versionId
  code := toStr e.code
  message := toStr e.message

/-- An output as the part of it that a handler acts on. -/
def SdkOutput.acted : SdkOutput → BackendOutput
  | putObject out => { versionId := out.versionId }
  | deleteObjects deleted errors =>
    { deleted := deleted.map SdkDeleted.listed, errors := errors.map SdkDeleteError.listed }
  | _ => {}

def actedReply : SdkReply → BackendReply
  | .error f => .error f.error
  | .ok out => .ok out.acted

end S3Gateway.S3gw
