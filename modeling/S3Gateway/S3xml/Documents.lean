import S3Gateway.S3gw.Backend
import S3Gateway.Cors.Rules

/-! # Response documents

The response bodies of package `s3xml`, field by field.  The names of the elements and the
namespace, which is the same on every document, are left to `xml.Marshal`; a field that is
omitted when empty is empty here. -/

namespace S3Gateway.S3xml

open Go
open S3gw (Algorithm)

/-- `s3xml.Checksums`: the element of each algorithm, empty when there is none. -/
abbrev Checksums := Algorithm → Bytes

structure Owner where
  id : Bytes
  displayName : Bytes

structure Object where
  key : Bytes
  lastModified : Bytes
  etag : Bytes
  checksumAlgorithm : List Bytes
  checksumType : Bytes
  size : Int
  storageClass : Bytes
  owner : Option Owner

structure ListBucketResult where
  name : Bytes
  keyPrefix : Bytes
  startAfter : Bytes
  /-- a token that was given and is empty is an empty element -/
  continuationToken : Option Bytes
  nextContinuationToken : Bytes
  keyCount : Int
  maxKeys : Int
  delimiter : Bytes
  encodingType : Bytes
  isTruncated : Bool
  contents : List Object
  commonPrefixes : List Bytes

structure ListBucketResultV1 where
  name : Bytes
  keyPrefix : Bytes
  marker : Bytes
  nextMarker : Bytes
  maxKeys : Int
  delimiter : Bytes
  encodingType : Bytes
  isTruncated : Bool
  contents : List Object
  commonPrefixes : List Bytes

structure ObjectVersion where
  key : Bytes
  versionId : Bytes
  isLatest : Bool
  lastModified : Bytes
  etag : Bytes
  checksumAlgorithm : List Bytes
  checksumType : Bytes
  size : Int
  storageClass : Bytes
  owner : Option Owner

structure DeleteMarkerEntry where
  key : Bytes
  versionId : Bytes
  isLatest : Bool
  lastModified : Bytes
  owner : Option Owner

structure ListVersionsResult where
  name : Bytes
  keyPrefix : Bytes
  keyMarker : Bytes
  versionIdMarker : Bytes
  nextKeyMarker : Bytes
  nextVersionIdMarker : Bytes
  maxKeys : Int
  delimiter : Bytes
  encodingType : Bytes
  isTruncated : Bool
  versions : List ObjectVersion
  deleteMarkers : List DeleteMarkerEntry
  commonPrefixes : List Bytes

structure Upload where
  key : Bytes
  uploadId : Bytes
  initiator : Option Owner
  owner : Option Owner
  storageClass : Bytes
  initiated : Bytes
  checksumAlgorithm : Bytes
  checksumType : Bytes

structure ListMultipartUploadsResult where
  bucket : Bytes
  keyMarker : Bytes
  uploadIdMarker : Bytes
  nextKeyMarker : Bytes
  nextUploadIdMarker : Bytes
  delimiter : Bytes
  keyPrefix : Bytes
  maxUploads : Int
  isTruncated : Bool
  uploads : List Upload
  commonPrefixes : List Bytes

structure Part where
  partNumber : Int
  lastModified : Bytes
  etag : Bytes
  size : Int
  checksums : Checksums

structure ListPartsResult where
  bucket : Bytes
  key : Bytes
  uploadId : Bytes
  partNumberMarker : Bytes
  nextPartNumberMarker : Bytes
  maxParts : Int
  isTruncated : Bool
  parts : List Part
  initiator : Option Owner
  owner : Option Owner
  storageClass : Bytes
  checksumAlgorithm : Bytes
  checksumType : Bytes

structure CopyObjectResult where
  etag : Bytes := []
  lastModified : Bytes := []
  checksumType : Bytes := []
  checksums : Checksums := fun _ => []

structure CopyPartResult where
  etag : Bytes := []
  lastModified : Bytes := []
  checksums : Checksums := fun _ => []

structure InitiateMultipartUploadResult where
  bucket : Bytes
  key : Bytes
  uploadId : Bytes

structure CompleteMultipartUploadResult where
  location : Bytes
  bucket : Bytes
  key : Bytes
  etag : Bytes
  checksums : Checksums
  checksumType : Bytes

structure ServerSideEncryptionByDefault where
  sseAlgorithm : Bytes
  kmsMasterKeyID : Bytes

structure ServerSideEncryptionRule where
  byDefault : Option ServerSideEncryptionByDefault
  bucketKeyEnabled : Option Bool

structure DefaultRetention where
  mode : Bytes
  days : Int
  years : Int

structure Grant where
  granteeType : Bytes
  id : Bytes
  displayName : Bytes
  permission : Bytes

structure AttributesChecksum where
  checksums : Checksums
  checksumType : Bytes

structure ObjectAttributePart where
  partNumber : Int
  size : Int
  checksums : Checksums

structure ObjectAttributeParts where
  isTruncated : Bool
  maxParts : Option Int
  nextPartNumberMarker : Bytes
  partNumberMarker : Bytes
  partsCount : Option Int
  parts : List ObjectAttributePart

structure GetObjectAttributesResult where
  etag : Bytes
  checksum : Option AttributesChecksum
  objectParts : Option ObjectAttributeParts
  storageClass : Bytes
  objectSize : Option Int

/-- What `s3xml.Write` is given. -/
inductive Document where
  | listBucketResult (r : ListBucketResult)
  | listBucketResultV1 (r : ListBucketResultV1)
  | listVersionsResult (r : ListVersionsResult)
  | listMultipartUploadsResult (r : ListMultipartUploadsResult)
  | listPartsResult (r : ListPartsResult)
  | locationConstraint (value : Bytes)
  | deleteResult (r : S3gw.DeleteResult)
  | copyObjectResult (r : CopyObjectResult)
  | copyPartResult (r : CopyPartResult)
  | initiateMultipartUploadResult (r : InitiateMultipartUploadResult)
  | completeMultipartUploadResult (r : CompleteMultipartUploadResult)
  | versioningConfiguration (status : Bytes)
  | policyStatus (isPublic : Bool)
  | ownershipControls (objectOwnership : List Bytes)
  | publicAccessBlockConfiguration (blockPublicAcls ignorePublicAcls blockPublicPolicy
      restrictPublicBuckets : Bool)
  | serverSideEncryptionConfiguration (rules : List ServerSideEncryptionRule)
  | objectLockConfiguration (objectLockEnabled : Bytes) (rule : Option DefaultRetention)
  | objectLockRetention (mode retainUntilDate : Bytes)
  | objectLockLegalHold (status : Bytes)
  | tagging (tags : List (Bytes × Bytes))
  | corsConfiguration (rules : List Cors.Rule)
  | accessControlPolicy (owner : Owner) (grants : List Grant)
  | getObjectAttributesResult (r : GetObjectAttributesResult)

end S3Gateway.S3xml
