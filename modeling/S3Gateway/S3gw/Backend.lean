import S3Gateway.S3gw.Checksum
import S3Gateway.S3err.SdkError
import S3Gateway.Library.Interaction
import S3Gateway.Go.Date

/-! # The backend interface

The inputs the operation handlers build, with the fields they set.  A string the
SDK takes by pointer is an `Option`; an enumeration of the SDK is the string it
wraps, empty when unset. -/

namespace S3Gateway.S3gw

open Go S3err

/-- The reader an upload hands the backend, by what it verifies. -/
inductive Payload where
  /-- an aws-chunked body, decoded and verified against the chunk signatures -/
  | chunked (trailerAlg : Bytes) (length : Int)
  /-- a body checked against the signed hash -/
  | hashed (want : Bytes) (length : Int)
  | raw (length : Int)
  /-- the file of a POST form, cut off beyond `max` -/
  | postFile (max : Int)
deriving DecidableEq

structure Conditionals where
  ifMatch : Option Bytes := none
  ifNoneMatch : Option Bytes := none
  ifModifiedSince : Option Time := none
  ifUnmodifiedSince : Option Time := none

structure GetObjectInput where
  bucket : Bytes
  key : Bytes
  conditionals : Conditionals
  range : Option Bytes
  checksumModeEnabled : Bool
  versionId : Option Bytes
  partNumber : Option Int
  responseContentType : Option Bytes
  responseContentDisposition : Option Bytes
  responseCacheControl : Option Bytes
  responseContentEncoding : Option Bytes
  responseContentLanguage : Option Bytes
  responseExpires : Option Time

structure HeadObjectInput where
  bucket : Bytes
  key : Bytes
  conditionals : Conditionals := {}
  range : Option Bytes := none
  checksumModeEnabled : Bool := false
  versionId : Option Bytes
  partNumber : Option Int := none

structure GetObjectAttributesInput where
  bucket : Bytes
  key : Bytes
  objectAttributes : List Bytes
  versionId : Option Bytes
  maxParts : Option Int
  partNumberMarker : Option Bytes

structure ObjectLock where
  mode : Bytes := []
  retainUntilDate : Option Time := none
  legalHoldStatus : Bytes := []

structure Encryption where
  serverSideEncryption : Bytes := []
  sseKMSKeyId : Option Bytes := none

structure PutObjectInput where
  bucket : Bytes
  key : Bytes
  body : Payload
  contentLength : Option Int
  ifMatch : Option Bytes := none
  ifNoneMatch : Option Bytes := none
  contentType : Option Bytes
  contentMD5 : Option Bytes
  cacheControl : Option Bytes
  contentDisposition : Option Bytes
  contentEncoding : Option Bytes
  contentLanguage : Option Bytes
  expires : Option Time
  storageClass : Bytes
  tagging : Option Bytes
  encryption : Encryption
  lock : ObjectLock := {}
  metadata : List (Bytes × Bytes)
  checksums : ChecksumValues := []
  checksumAlgorithm : Bytes := []

structure DeleteObjectInput where
  bucket : Bytes
  key : Bytes
  versionId : Option Bytes
  bypassGovernanceRetention : Bool := false
  ifMatch : Option Bytes := none
  ifMatchLastModifiedTime : Option Time := none
  ifMatchSize : Option Int := none

structure ListInput where
  bucket : Bytes
  keyPrefix : Option Bytes
  delimiter : Option Bytes
  encodingType : Bytes

structure CreateMultipartUploadInput where
  bucket : Bytes
  key : Bytes
  contentType : Option Bytes
  cacheControl : Option Bytes
  contentDisposition : Option Bytes
  contentEncoding : Option Bytes
  contentLanguage : Option Bytes
  expires : Option Time
  storageClass : Bytes
  tagging : Option Bytes
  lock : ObjectLock
  metadata : List (Bytes × Bytes)
  checksumAlgorithm : Bytes
  checksumType : Bytes
  encryption : Encryption

structure UploadPartInput where
  bucket : Bytes
  key : Bytes
  uploadId : Bytes
  partNumber : Int
  body : Payload
  contentLength : Int
  contentMD5 : Option Bytes
  checksums : ChecksumValues
  checksumAlgorithm : Bytes

structure CompletedPart where
  partNumber : Int
  etag : Bytes
  checksums : ChecksumValues

structure CompleteMultipartUploadInput where
  bucket : Bytes
  key : Bytes
  uploadId : Bytes
  parts : List CompletedPart
  ifMatch : Option Bytes
  ifNoneMatch : Option Bytes
  checksumType : Bytes
  checksums : ChecksumValues
  mpuObjectSize : Option Int

structure CopyObjectInput where
  bucket : Bytes
  key : Bytes
  copySource : Bytes
  metadataDirective : Bytes
  contentType : Option Bytes
  storageClass : Bytes
  checksumAlgorithm : Bytes
  taggingDirective : Bytes
  tagging : Option Bytes
  lock : ObjectLock
  metadata : List (Bytes × Bytes)
  copySourceIfMatch : Option Bytes
  copySourceIfNoneMatch : Option Bytes
  copySourceIfModifiedSince : Option Time
  copySourceIfUnmodifiedSince : Option Time
  encryption : Encryption

structure UploadPartCopyInput where
  bucket : Bytes
  key : Bytes
  uploadId : Bytes
  partNumber : Int
  copySource : Bytes
  copySourceRange : Option Bytes

structure ObjectIdentifier where
  key : Bytes
  versionId : Option Bytes
  etag : Option Bytes
  lastModifiedTime : Option Time
  size : Option Int

structure DeleteObjectsInput where
  bucket : Bytes
  objects : List ObjectIdentifier
  quiet : Bool
  bypassGovernanceRetention : Bool

structure PutObjectRetentionInput where
  bucket : Bytes
  key : Bytes
  mode : Bytes
  retainUntilDate : Option Time
  versionId : Option Bytes
  bypassGovernanceRetention : Bool

/-- One constructor per method of `BackendClient`. -/
inductive BackendInput where
  | getObject (i : GetObjectInput)
  | headObject (i : HeadObjectInput)
  | getObjectAttributes (i : GetObjectAttributesInput)
  | putObject (i : PutObjectInput)
  | deleteObject (i : DeleteObjectInput)
  | listObjectsV2 (i : ListInput) (maxKeys : Option Int) (continuationToken startAfter : Option Bytes)
      (fetchOwner : Bool)
  | listObjects (i : ListInput) (maxKeys : Option Int) (marker : Option Bytes)
  | listObjectVersions (i : ListInput) (maxKeys : Option Int) (keyMarker versionIdMarker : Option Bytes)
  | listMultipartUploads (i : ListInput) (maxUploads : Option Int)
      (keyMarker uploadIdMarker : Option Bytes)
  | headBucket (bucket : Bytes)
  | createMultipartUpload (i : CreateMultipartUploadInput)
  | uploadPart (i : UploadPartInput)
  | completeMultipartUpload (i : CompleteMultipartUploadInput)
  | abortMultipartUpload (bucket key uploadId : Bytes)
  | listParts (bucket key uploadId : Bytes) (maxParts : Option Int) (partNumberMarker : Option Bytes)
  | deleteObjects (i : DeleteObjectsInput)
  | copyObject (i : CopyObjectInput)
  | uploadPartCopy (i : UploadPartCopyInput)
  | getBucketVersioning (bucket : Bytes)
  | getBucketEncryption (bucket : Bytes)
  | getObjectLockConfiguration (bucket : Bytes)
  | getObjectTagging (bucket key : Bytes) (versionId : Option Bytes)
  | putObjectTagging (bucket key : Bytes) (tagSet : List (Bytes × Bytes)) (versionId : Option Bytes)
  | deleteObjectTagging (bucket key : Bytes) (versionId : Option Bytes)
  | getObjectRetention (bucket key : Bytes) (versionId : Option Bytes)
  | putObjectRetention (i : PutObjectRetentionInput)
  | getObjectLegalHold (bucket key : Bytes) (versionId : Option Bytes)
  | putObjectLegalHold (bucket key status : Bytes) (versionId : Option Bytes)

namespace BackendInput

/-- The operation a method of `BackendClient` carries out. -/
def operation : BackendInput → S3op.OpName
  | getObject _ => .getObject
  | headObject _ => .headObject
  | getObjectAttributes _ => .getObjectAttributes
  | putObject _ => .putObject
  | deleteObject _ => .deleteObject
  | listObjectsV2 .. => .listObjectsV2
  | listObjects .. => .listObjects
  | listObjectVersions .. => .listObjectVersions
  | listMultipartUploads .. => .listMultipartUploads
  | headBucket _ => .headBucket
  | createMultipartUpload _ => .createMultipartUpload
  | uploadPart _ => .uploadPart
  | completeMultipartUpload _ => .completeMultipartUpload
  | abortMultipartUpload .. => .abortMultipartUpload
  | listParts .. => .listParts
  | deleteObjects _ => .deleteObjects
  | copyObject _ => .copyObject
  | uploadPartCopy _ => .uploadPartCopy
  | getBucketVersioning _ => .getBucketVersioning
  | getBucketEncryption _ => .getBucketEncryption
  | getObjectLockConfiguration _ => .getObjectLockConfiguration
  | getObjectTagging .. => .getObjectTagging
  | putObjectTagging .. => .putObjectTagging
  | deleteObjectTagging .. => .deleteObjectTagging
  | getObjectRetention .. => .getObjectRetention
  | putObjectRetention _ => .putObjectRetention
  | getObjectLegalHold .. => .getObjectLegalHold
  | putObjectLegalHold .. => .putObjectLegalHold

def bucket : BackendInput → Bytes
  | getObject i => i.bucket
  | headObject i => i.bucket
  | getObjectAttributes i => i.bucket
  | putObject i => i.bucket
  | deleteObject i => i.bucket
  | listObjectsV2 i _ _ _ _ => i.bucket
  | listObjects i _ _ => i.bucket
  | listObjectVersions i _ _ _ => i.bucket
  | listMultipartUploads i _ _ _ => i.bucket
  | headBucket b => b
  | createMultipartUpload i => i.bucket
  | uploadPart i => i.bucket
  | completeMultipartUpload i => i.bucket
  | abortMultipartUpload b _ _ => b
  | listParts b _ _ _ _ => b
  | deleteObjects i => i.bucket
  | copyObject i => i.bucket
  | uploadPartCopy i => i.bucket
  | getBucketVersioning b => b
  | getBucketEncryption b => b
  | getObjectLockConfiguration b => b
  | getObjectTagging b _ _ => b
  | putObjectTagging b _ _ _ => b
  | deleteObjectTagging b _ _ => b
  | getObjectRetention b _ _ => b
  | putObjectRetention i => i.bucket
  | getObjectLegalHold b _ _ => b
  | putObjectLegalHold b _ _ _ => b

/-- The object an input addresses; none for a bucket operation and for
    `DeleteObjects`, which names its objects one by one. -/
def key : BackendInput → Option Bytes
  | getObject i => some i.key
  | headObject i => some i.key
  | getObjectAttributes i => some i.key
  | putObject i => some i.key
  | deleteObject i => some i.key
  | createMultipartUpload i => some i.key
  | uploadPart i => some i.key
  | completeMultipartUpload i => some i.key
  | abortMultipartUpload _ k _ => some k
  | listParts _ k _ _ _ => some k
  | copyObject i => some i.key
  | uploadPartCopy i => some i.key
  | getObjectTagging _ k _ => some k
  | putObjectTagging _ k _ _ => some k
  | deleteObjectTagging _ k _ => some k
  | getObjectRetention _ k _ => some k
  | putObjectRetention i => some i.key
  | getObjectLegalHold _ k _ => some k
  | putObjectLegalHold _ k _ _ => some k
  | _ => none

def versionId : BackendInput → Option Bytes
  | getObject i => i.versionId
  | headObject i => i.versionId
  | getObjectAttributes i => i.versionId
  | deleteObject i => i.versionId
  | getObjectTagging _ _ v => v
  | putObjectTagging _ _ _ v => v
  | deleteObjectTagging _ _ v => v
  | getObjectRetention _ _ v => v
  | putObjectRetention i => i.versionId
  | getObjectLegalHold _ _ v => v
  | putObjectLegalHold _ _ _ v => v
  | _ => none

/-- The objects a `DeleteObjects` input names. -/
def objects : BackendInput → List ObjectIdentifier
  | deleteObjects i => i.objects
  | _ => []

/-- The `Tagging` of an upload. -/
def tagging : BackendInput → Option Bytes
  | putObject i => i.tagging
  | createMultipartUpload i => i.tagging
  | copyObject i => i.tagging
  | _ => none

def lock : BackendInput → ObjectLock
  | putObject i => i.lock
  | createMultipartUpload i => i.lock
  | copyObject i => i.lock
  | _ => {}

/-- The object a copy reads, as the backend is told. -/
def copySource : BackendInput → Option Bytes
  | copyObject i => some i.copySource
  | uploadPartCopy i => some i.copySource
  | _ => none

def bypassGovernance : BackendInput → Bool
  | deleteObject i => i.bypassGovernanceRetention
  | deleteObjects i => i.bypassGovernanceRetention
  | putObjectRetention i => i.bypassGovernanceRetention
  | _ => false

end BackendInput

/-! ## Calls and replies -/

/-- A call through the client built for `client`. -/
structure BackendCall where
  client : Backend
  input : BackendInput

structure DeletedObject where
  key : Bytes
  versionId : Bytes
  deleteMarker : Bool
  deleteMarkerVersionId : Bytes

structure DeleteError where
  key : Bytes
  versionId : Bytes
  code : Bytes
  message : Bytes

/-- The part of an SDK output a handler acts on; what is only rendered is left out. -/
structure BackendOutput where
  versionId : Option Bytes := none
  /-- how much of the body the call was given it has read -/
  bodyRead : Int := 0
  deleted : List DeletedObject := []
  errors : List DeleteError := []

abbrev BackendReply := Except SdkError BackendOutput

structure DeleteResult where
  deleted : List DeletedObject
  errors : List DeleteError

structure ListAllMyBucketsResult where
  owner : Bytes
  buckets : List (Bytes × Time)
  continuationToken : Bytes

inductive Response where
  /-- a response rendered from the backend's or the store's answer -/
  | rendered
  | preflight (header : Header)
  | bucketList (result : ListAllMyBucketsResult)
  | deleteResult (result : DeleteResult) (denials : List Denial)

abbrev HandlerResult := Except S3Error Response

abbrev HandlerProg := Interaction.Prog BackendCall BackendReply HandlerResult

def refuse (e : S3Error) : HandlerProg := .pure (.error e)

end S3Gateway.S3gw
