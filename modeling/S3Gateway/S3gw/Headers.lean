import S3Gateway.Go.Sort
import S3Gateway.S3gw.Types

/-! # Reading request headers

`headers.go`: headers in view of what the signature covers, the refusal of unknown
`x-amz-*` headers, and the checks on encryption and ACL headers. -/

namespace S3Gateway.S3gw

open Go S3err

/-! ## Names -/

def hdrStorageClass : Bytes := str "x-amz-storage-class"
def hdrCopySource : Bytes := str "x-amz-copy-source"
def hdrTagging : Bytes := str "x-amz-tagging"
def hdrObjectLockMode : Bytes := str "x-amz-object-lock-mode"
def hdrObjectLockRetainUntil : Bytes := str "x-amz-object-lock-retain-until-date"
def hdrObjectLockLegalHold : Bytes := str "x-amz-object-lock-legal-hold"
def hdrBypassGovernanceRetention : Bytes := str "x-amz-bypass-governance-retention"
def hdrSSE : Bytes := str "x-amz-server-side-encryption"
def hdrSSEKMSKeyID : Bytes := str "x-amz-server-side-encryption-aws-kms-key-id"
def hdrSSECAlgo : Bytes := str "x-amz-server-side-encryption-customer-algorithm"
def hdrCopySSECAlgo : Bytes := str "x-amz-copy-source-server-side-encryption-customer-algorithm"
def amzMetaPrefix : Bytes := str "x-amz-meta-"

def knownAmzHeaders : List Bytes := [
  str "x-amz-date", str "x-amz-content-sha256", str "x-amz-security-token",
  str "x-amz-decoded-content-length", str "x-amz-trailer", str "x-amz-user-agent",
  str "x-amz-checksum-algorithm", str "x-amz-checksum-type", str "x-amz-checksum-mode",
  str "x-amz-sdk-checksum-algorithm",
  hdrStorageClass, hdrTagging, str "x-amz-tagging-directive", str "x-amz-metadata-directive",
  hdrCopySource, str "x-amz-copy-source-if-match", str "x-amz-copy-source-if-none-match",
  str "x-amz-copy-source-if-modified-since", str "x-amz-copy-source-if-unmodified-since",
  str "x-amz-copy-source-range", str "x-amz-mp-object-size",
  hdrSSE, hdrSSEKMSKeyID,
  str "x-amz-acl", str "x-amz-grant-read", str "x-amz-grant-write", str "x-amz-grant-read-acp",
  str "x-amz-grant-write-acp", str "x-amz-grant-full-control",
  hdrObjectLockMode, hdrObjectLockRetainUntil, hdrObjectLockLegalHold,
  str "x-amz-bypass-governance-retention",
  str "x-amz-object-attributes", str "x-amz-max-parts", str "x-amz-part-number-marker",
  str "x-amz-if-match-size", str "x-amz-if-match-last-modified-time"]

/-! ## The signed view -/

/-- `signedHeader`: `signed` holds the lower-cased names the signature covers. -/
structure SignedHeader where
  h : Header
  signed : List Bytes

namespace SignedHeader

variable [Unicode] (s : SignedHeader)

/-- `Signed(name)`: the value when the signature covers it, else the empty string. -/
def signedValue (name : Bytes) : Bytes := if toLower name ∈ s.signed then s.h.get name else []

def signedValues (name : Bytes) : List Bytes :=
  if toLower name ∈ s.signed then s.h.valuesOf name else []

/-- `Attribute(name)`: the value, signed or not. -/
def attr (name : Bytes) : Bytes := s.h.get name

def attributeValues (name : Bytes) : List Bytes := s.h.valuesOf name

/-- `AmzMeta()`: the user metadata, prefix removed, one entry per header key. -/
def amzMeta : List (Bytes × Bytes) :=
  s.h.keys.filterMap fun k =>
    match cutPrefix (toLower k) amzMetaPrefix with
    | some name => if toLower k ∈ s.signed then some (name, (s.h.lookup k).getD []) else none
    | none => none

/-- `checkKnownAmzHeaders(checksums)`; `knownHeader` is the checksum policy's. -/
def checkKnownAmzHeaders (knownHeader : Bytes → Bool) : Option S3Error :=
  let unknown := (s.h.keys.map toLower).filter fun lname =>
    hasPrefix lname (str "x-amz-") && !(lname ∈ knownAmzHeaders || knownHeader lname ||
      hasPrefix lname amzMetaPrefix)
  if unknown.isEmpty then none
  else some (notImplemented (str "header " ++ join (sortStrings unknown) (str ", ")))

end SignedHeader

def newSignedHeader (r : Request) (signed : List Bytes) : SignedHeader := { h := r.header, signed }

/-- `postFieldHeader(fields)`: form fields as headers that are all covered. -/
def postFieldHeader [Unicode] (fields : List (Bytes × Bytes)) : SignedHeader where
  h := fields.foldl (fun h (k, v) => h.set k v) []
  signed := fields.map fun (k, _) => toLower k

section Checks

variable [Unicode] (hdr : SignedHeader)

def bypassGovernanceRetention : Bool :=
  hdr.signedValue hdrBypassGovernanceRetention == str "true"

/-- `checkSSEC(hdr)`: a refusal sees the value signed or not. -/
def checkSSEC : Option S3Error :=
  if hdr.attr hdrSSECAlgo ≠ [] ∨ hdr.attr hdrCopySSECAlgo ≠ [] then
    some (notImplemented (str "SSE-C"))
  else none

def checkSSE : Option S3Error :=
  let v := hdr.signedValue hdrSSE
  if v ≠ [] ∧ v ≠ str "AES256" ∧ v ≠ str "aws:kms" then
    some (invalidArgument (str "The encryption method specified is not supported"))
  else if hdr.signedValue hdrSSEKMSKeyID ≠ [] ∧ v ≠ str "aws:kms" then
    some (invalidArgument (hdrSSEKMSKeyID ++ str " can only be used with aws:kms"))
  else none

def errACLNotSupported : S3Error :=
  { status := 400, code := str "AccessControlListNotSupported",
    message := str "The bucket does not allow ACLs" }

def aclGrantHeaders : List Bytes := [
  str "x-amz-grant-read", str "x-amz-grant-write", str "x-amz-grant-read-acp",
  str "x-amz-grant-write-acp", str "x-amz-grant-full-control"]

def checkACLHeader : Option S3Error :=
  if aclGrantHeaders.any fun name => !(hdr.attributeValues name).isEmpty then
    some errACLNotSupported
  else if hdr.attr (str "x-amz-acl") ∈ [[], str "private", str "bucket-owner-full-control"] then none
  else some errACLNotSupported

end Checks

end S3Gateway.S3gw
