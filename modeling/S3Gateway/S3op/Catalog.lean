import S3Gateway.Policy.Pattern

/-! # The operation catalog

`s3op`: the S3 operations the gateway knows and the actions each one authorizes,
in catalog order.  The notes of the catalog are left out. -/

namespace S3Gateway.S3op

open Go

inductive OpName where
  | listBuckets | headBucket | listObjects | listObjectsV2 | listObjectVersions
  | listMultipartUploads | getBucketLocation | getBucketAcl | getBucketPolicy
  | getBucketPolicyStatus | getBucketCors | getBucketVersioning | getBucketEncryption
  | getBucketOwnershipControls | getPublicAccessBlock | getObjectLockConfiguration
  | deleteObjects | postObject | createBucket | deleteBucket | putBucketAcl | putBucketPolicy
  | deleteBucketPolicy | putBucketCors | deleteBucketCors | putBucketVersioning
  | putObjectLockConfiguration | putBucketEncryption | deleteBucketEncryption
  | putBucketOwnershipControls | deleteBucketOwnershipControls | putPublicAccessBlock
  | deletePublicAccessBlock | getObject | headObject | getObjectAttributes | putObject
  | copyObject | deleteObject | getObjectTagging | putObjectTagging | deleteObjectTagging
  | getObjectAcl | getObjectRetention | putObjectRetention | getObjectLegalHold
  | putObjectLegalHold | putObjectAcl | createMultipartUpload | uploadPart | uploadPartCopy
  | completeMultipartUpload | abortMultipartUpload | listParts
deriving DecidableEq, Repr

def OpName.name : OpName → Bytes
  | .listBuckets => str "ListBuckets"
  | .headBucket => str "HeadBucket"
  | .listObjects => str "ListObjects"
  | .listObjectsV2 => str "ListObjectsV2"
  | .listObjectVersions => str "ListObjectVersions"
  | .listMultipartUploads => str "ListMultipartUploads"
  | .getBucketLocation => str "GetBucketLocation"
  | .getBucketAcl => str "GetBucketAcl"
  | .getBucketPolicy => str "GetBucketPolicy"
  | .getBucketPolicyStatus => str "GetBucketPolicyStatus"
  | .getBucketCors => str "GetBucketCors"
  | .getBucketVersioning => str "GetBucketVersioning"
  | .getBucketEncryption => str "GetBucketEncryption"
  | .getBucketOwnershipControls => str "GetBucketOwnershipControls"
  | .getPublicAccessBlock => str "GetPublicAccessBlock"
  | .getObjectLockConfiguration => str "GetObjectLockConfiguration"
  | .deleteObjects => str "DeleteObjects"
  | .postObject => str "PostObject"
  | .createBucket => str "CreateBucket"
  | .deleteBucket => str "DeleteBucket"
  | .putBucketAcl => str "PutBucketAcl"
  | .putBucketPolicy => str "PutBucketPolicy"
  | .deleteBucketPolicy => str "DeleteBucketPolicy"
  | .putBucketCors => str "PutBucketCors"
  | .deleteBucketCors => str "DeleteBucketCors"
  | .putBucketVersioning => str "PutBucketVersioning"
  | .putObjectLockConfiguration => str "PutObjectLockConfiguration"
  | .putBucketEncryption => str "PutBucketEncryption"
  | .deleteBucketEncryption => str "DeleteBucketEncryption"
  | .putBucketOwnershipControls => str "PutBucketOwnershipControls"
  | .deleteBucketOwnershipControls => str "DeleteBucketOwnershipControls"
  | .putPublicAccessBlock => str "PutPublicAccessBlock"
  | .deletePublicAccessBlock => str "DeletePublicAccessBlock"
  | .getObject => str "GetObject"
  | .headObject => str "HeadObject"
  | .getObjectAttributes => str "GetObjectAttributes"
  | .putObject => str "PutObject"
  | .copyObject => str "CopyObject"
  | .deleteObject => str "DeleteObject"
  | .getObjectTagging => str "GetObjectTagging"
  | .putObjectTagging => str "PutObjectTagging"
  | .deleteObjectTagging => str "DeleteObjectTagging"
  | .getObjectAcl => str "GetObjectAcl"
  | .getObjectRetention => str "GetObjectRetention"
  | .putObjectRetention => str "PutObjectRetention"
  | .getObjectLegalHold => str "GetObjectLegalHold"
  | .putObjectLegalHold => str "PutObjectLegalHold"
  | .putObjectAcl => str "PutObjectAcl"
  | .createMultipartUpload => str "CreateMultipartUpload"
  | .uploadPart => str "UploadPart"
  | .uploadPartCopy => str "UploadPartCopy"
  | .completeMultipartUpload => str "CompleteMultipartUpload"
  | .abortMultipartUpload => str "AbortMultipartUpload"
  | .listParts => str "ListParts"

inductive Action where
  | abortMultipartUpload | bypassGovernanceRetention | deleteObject | deleteObjectTagging
  | deleteObjectVersion | deleteObjectVersionTagging | getBucketAcl | getBucketCORS
  | getBucketLocation | getBucketObjectLockConfiguration | getBucketOwnershipControls
  | getBucketPolicy | getBucketPolicyStatus | getBucketPublicAccessBlock | getBucketVersioning
  | getEncryptionConfiguration | getObject | getObjectAcl | getObjectLegalHold
  | getObjectRetention | getObjectTagging | getObjectVersion | getObjectVersionAcl
  | getObjectVersionTagging | listAllMyBuckets | listBucket | listBucketMultipartUploads
  | listBucketVersions | listMultipartUploadParts | putObject | putObjectLegalHold
  | putObjectRetention | putObjectTagging | putObjectVersionTagging
deriving DecidableEq, Repr

def Action.name : Action → Bytes
  | .abortMultipartUpload => str "s3:AbortMultipartUpload"
  | .bypassGovernanceRetention => str "s3:BypassGovernanceRetention"
  | .deleteObject => str "s3:DeleteObject"
  | .deleteObjectTagging => str "s3:DeleteObjectTagging"
  | .deleteObjectVersion => str "s3:DeleteObjectVersion"
  | .deleteObjectVersionTagging => str "s3:DeleteObjectVersionTagging"
  | .getBucketAcl => str "s3:GetBucketAcl"
  | .getBucketCORS => str "s3:GetBucketCORS"
  | .getBucketLocation => str "s3:GetBucketLocation"
  | .getBucketObjectLockConfiguration => str "s3:GetBucketObjectLockConfiguration"
  | .getBucketOwnershipControls => str "s3:GetBucketOwnershipControls"
  | .getBucketPolicy => str "s3:GetBucketPolicy"
  | .getBucketPolicyStatus => str "s3:GetBucketPolicyStatus"
  | .getBucketPublicAccessBlock => str "s3:GetBucketPublicAccessBlock"
  | .getBucketVersioning => str "s3:GetBucketVersioning"
  | .getEncryptionConfiguration => str "s3:GetEncryptionConfiguration"
  | .getObject => str "s3:GetObject"
  | .getObjectAcl => str "s3:GetObjectAcl"
  | .getObjectLegalHold => str "s3:GetObjectLegalHold"
  | .getObjectRetention => str "s3:GetObjectRetention"
  | .getObjectTagging => str "s3:GetObjectTagging"
  | .getObjectVersion => str "s3:GetObjectVersion"
  | .getObjectVersionAcl => str "s3:GetObjectVersionAcl"
  | .getObjectVersionTagging => str "s3:GetObjectVersionTagging"
  | .listAllMyBuckets => str "s3:ListAllMyBuckets"
  | .listBucket => str "s3:ListBucket"
  | .listBucketMultipartUploads => str "s3:ListBucketMultipartUploads"
  | .listBucketVersions => str "s3:ListBucketVersions"
  | .listMultipartUploadParts => str "s3:ListMultipartUploadParts"
  | .putObject => str "s3:PutObject"
  | .putObjectLegalHold => str "s3:PutObjectLegalHold"
  | .putObjectRetention => str "s3:PutObjectRetention"
  | .putObjectTagging => str "s3:PutObjectTagging"
  | .putObjectVersionTagging => str "s3:PutObjectVersionTagging"

inductive Scope where
  | service
  | bucket
  | object
deriving DecidableEq

inductive Support where
  | supported
  | refused
deriving DecidableEq

/-- `Resource`: what an action is authorized against. -/
inductive Resource where
  | target
  | copySource
  | eachKey
deriving DecidableEq

structure Authorization where
  action : Action
  on : Resource
  versionAction : Option Action := none
  header : Option Bytes := none
deriving DecidableEq

structure Operation where
  name : OpName
  scope : Scope
  support : Support
  authorizations : List Authorization := []
deriving DecidableEq

def operations : List Operation := [
  { name := .listBuckets, scope := .service, support := .supported,
    authorizations := [{ action := .listAllMyBuckets, on := .target }] },
  { name := .headBucket, scope := .bucket, support := .supported,
    authorizations := [{ action := .listBucket, on := .target }] },
  { name := .listObjects, scope := .bucket, support := .supported,
    authorizations := [{ action := .listBucket, on := .target }] },
  { name := .listObjectsV2, scope := .bucket, support := .supported,
    authorizations := [{ action := .listBucket, on := .target }] },
  { name := .listObjectVersions, scope := .bucket, support := .supported,
    authorizations := [{ action := .listBucketVersions, on := .target }] },
  { name := .listMultipartUploads, scope := .bucket, support := .supported,
    authorizations := [{ action := .listBucketMultipartUploads, on := .target }] },
  { name := .getBucketLocation, scope := .bucket, support := .supported,
    authorizations := [{ action := .getBucketLocation, on := .target }] },
  { name := .getBucketAcl, scope := .bucket, support := .supported,
    authorizations := [{ action := .getBucketAcl, on := .target }] },
  { name := .getBucketPolicy, scope := .bucket, support := .supported,
    authorizations := [{ action := .getBucketPolicy, on := .target }] },
  { name := .getBucketPolicyStatus, scope := .bucket, support := .supported,
    authorizations := [{ action := .getBucketPolicyStatus, on := .target }] },
  { name := .getBucketCors, scope := .bucket, support := .supported,
    authorizations := [{ action := .getBucketCORS, on := .target }] },
  { name := .getBucketVersioning, scope := .bucket, support := .supported,
    authorizations := [{ action := .getBucketVersioning, on := .target }] },
  { name := .getBucketEncryption, scope := .bucket, support := .supported,
    authorizations := [{ action := .getEncryptionConfiguration, on := .target }] },
  { name := .getBucketOwnershipControls, scope := .bucket, support := .supported,
    authorizations := [{ action := .getBucketOwnershipControls, on := .target }] },
  { name := .getPublicAccessBlock, scope := .bucket, support := .supported,
    authorizations := [{ action := .getBucketPublicAccessBlock, on := .target }] },
  { name := .getObjectLockConfiguration, scope := .bucket, support := .supported,
    authorizations := [{ action := .getBucketObjectLockConfiguration, on := .target }] },
  { name := .deleteObjects, scope := .bucket, support := .supported,
    authorizations := [
      { action := .deleteObject, on := .eachKey, versionAction := some .deleteObjectVersion },
      { action := .bypassGovernanceRetention, on := .eachKey,
        header := some (str "x-amz-bypass-governance-retention") }] },
  { name := .postObject, scope := .bucket, support := .supported,
    authorizations := [
      { action := .putObject, on := .target },
      { action := .putObjectTagging, on := .target, header := some (str "x-amz-tagging") }] },
  { name := .createBucket, scope := .bucket, support := .refused },
  { name := .deleteBucket, scope := .bucket, support := .refused },
  { name := .putBucketAcl, scope := .bucket, support := .refused },
  { name := .putBucketPolicy, scope := .bucket, support := .refused },
  { name := .deleteBucketPolicy, scope := .bucket, support := .refused },
  { name := .putBucketCors, scope := .bucket, support := .refused },
  { name := .deleteBucketCors, scope := .bucket, support := .refused },
  { name := .putBucketVersioning, scope := .bucket, support := .refused },
  { name := .putObjectLockConfiguration, scope := .bucket, support := .refused },
  { name := .putBucketEncryption, scope := .bucket, support := .refused },
  { name := .deleteBucketEncryption, scope := .bucket, support := .refused },
  { name := .putBucketOwnershipControls, scope := .bucket, support := .refused },
  { name := .deleteBucketOwnershipControls, scope := .bucket, support := .refused },
  { name := .putPublicAccessBlock, scope := .bucket, support := .refused },
  { name := .deletePublicAccessBlock, scope := .bucket, support := .refused },
  { name := .getObject, scope := .object, support := .supported,
    authorizations := [
      { action := .getObject, on := .target, versionAction := some .getObjectVersion }] },
  { name := .headObject, scope := .object, support := .supported,
    authorizations := [
      { action := .getObject, on := .target, versionAction := some .getObjectVersion }] },
  { name := .getObjectAttributes, scope := .object, support := .supported,
    authorizations := [
      { action := .getObject, on := .target, versionAction := some .getObjectVersion }] },
  { name := .putObject, scope := .object, support := .supported,
    authorizations := [
      { action := .putObject, on := .target },
      { action := .putObjectTagging, on := .target, header := some (str "x-amz-tagging") },
      { action := .putObjectRetention, on := .target,
        header := some (str "x-amz-object-lock-mode") },
      { action := .putObjectRetention, on := .target,
        header := some (str "x-amz-object-lock-retain-until-date") },
      { action := .putObjectLegalHold, on := .target,
        header := some (str "x-amz-object-lock-legal-hold") }] },
  { name := .copyObject, scope := .object, support := .supported,
    authorizations := [
      { action := .putObject, on := .target },
      { action := .putObjectTagging, on := .target, header := some (str "x-amz-tagging") },
      { action := .putObjectRetention, on := .target,
        header := some (str "x-amz-object-lock-mode") },
      { action := .putObjectRetention, on := .target,
        header := some (str "x-amz-object-lock-retain-until-date") },
      { action := .putObjectLegalHold, on := .target,
        header := some (str "x-amz-object-lock-legal-hold") },
      { action := .getObject, on := .copySource, versionAction := some .getObjectVersion }] },
  { name := .deleteObject, scope := .object, support := .supported,
    authorizations := [
      { action := .deleteObject, on := .target, versionAction := some .deleteObjectVersion },
      { action := .bypassGovernanceRetention, on := .target,
        header := some (str "x-amz-bypass-governance-retention") }] },
  { name := .getObjectTagging, scope := .object, support := .supported,
    authorizations := [
      { action := .getObjectTagging, on := .target, versionAction := some .getObjectVersionTagging }] },
  { name := .putObjectTagging, scope := .object, support := .supported,
    authorizations := [
      { action := .putObjectTagging, on := .target, versionAction := some .putObjectVersionTagging }] },
  { name := .deleteObjectTagging, scope := .object, support := .supported,
    authorizations := [
      { action := .deleteObjectTagging, on := .target, versionAction := some .deleteObjectVersionTagging }] },
  { name := .getObjectAcl, scope := .object, support := .supported,
    authorizations := [
      { action := .getObjectAcl, on := .target, versionAction := some .getObjectVersionAcl }] },
  { name := .getObjectRetention, scope := .object, support := .supported,
    authorizations := [{ action := .getObjectRetention, on := .target }] },
  { name := .putObjectRetention, scope := .object, support := .supported,
    authorizations := [
      { action := .putObjectRetention, on := .target },
      { action := .bypassGovernanceRetention, on := .target,
        header := some (str "x-amz-bypass-governance-retention") }] },
  { name := .getObjectLegalHold, scope := .object, support := .supported,
    authorizations := [{ action := .getObjectLegalHold, on := .target }] },
  { name := .putObjectLegalHold, scope := .object, support := .supported,
    authorizations := [{ action := .putObjectLegalHold, on := .target }] },
  { name := .putObjectAcl, scope := .object, support := .refused },
  { name := .createMultipartUpload, scope := .object, support := .supported,
    authorizations := [
      { action := .putObject, on := .target },
      { action := .putObjectTagging, on := .target, header := some (str "x-amz-tagging") },
      { action := .putObjectRetention, on := .target,
        header := some (str "x-amz-object-lock-mode") },
      { action := .putObjectRetention, on := .target,
        header := some (str "x-amz-object-lock-retain-until-date") },
      { action := .putObjectLegalHold, on := .target,
        header := some (str "x-amz-object-lock-legal-hold") }] },
  { name := .uploadPart, scope := .object, support := .supported,
    authorizations := [{ action := .putObject, on := .target }] },
  { name := .uploadPartCopy, scope := .object, support := .supported,
    authorizations := [
      { action := .putObject, on := .target },
      { action := .getObject, on := .copySource, versionAction := some .getObjectVersion }] },
  { name := .completeMultipartUpload, scope := .object, support := .supported,
    authorizations := [{ action := .putObject, on := .target }] },
  { name := .abortMultipartUpload, scope := .object, support := .supported,
    authorizations := [{ action := .abortMultipartUpload, on := .target }] },
  { name := .listParts, scope := .object, support := .supported,
    authorizations := [{ action := .listMultipartUploadParts, on := .target }] }]

def lookup (name : OpName) : Option Operation := operations.find? (·.name = name)

/-- `Actions()`: every action some operation authorizes, sorted. -/
def actions : List Action :=
  [.abortMultipartUpload, .bypassGovernanceRetention, .deleteObject, .deleteObjectTagging,
    .deleteObjectVersion, .deleteObjectVersionTagging, .getBucketAcl, .getBucketCORS,
    .getBucketLocation, .getBucketObjectLockConfiguration, .getBucketOwnershipControls,
    .getBucketPolicy, .getBucketPolicyStatus, .getBucketPublicAccessBlock, .getBucketVersioning,
    .getEncryptionConfiguration, .getObject, .getObjectAcl, .getObjectLegalHold,
    .getObjectRetention, .getObjectTagging, .getObjectVersion, .getObjectVersionAcl,
    .getObjectVersionTagging, .listAllMyBuckets, .listBucket, .listBucketMultipartUploads,
    .listBucketVersions, .listMultipartUploadParts, .putObject, .putObjectLegalHold,
    .putObjectRetention, .putObjectTagging, .putObjectVersionTagging]

/-- `CheckActionPattern(p)`: the pattern itself when it matches no action, as the
    `UnknownActionError` carries it. -/
def checkActionPattern [Unicode] (p : Bytes) : Option Bytes :=
  if actions.any fun a => Policy.match_ (toLower p) (toLower a.name) then none else some p

theorem lookup_isSome (name : OpName) : (lookup name).isSome = true := by
  cases name <;> rfl

end S3Gateway.S3op
