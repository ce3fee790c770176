import S3Gateway.Library.TwoRuns
import S3Gateway.S3gw.Respond

/-! # What a response does not tell

Where a bucket is placed, which names its backend has for accounts, storage classes and
encryption keys, and checksums the gateway does not offer: none of it shows in a response.

Every response is the one a gateway without mappers would give to an output in which all of
this has been replaced by what the client may see (`respond_shown`).  Two placements of a
bucket whose outputs are the same once they are replaced that way are then not told apart,
since nothing before the call depends on the placement but the call itself. -/

namespace S3Gateway.S3gw

open Go S3err Interaction TwoRuns

/-! ## What the client may see of an output -/

section Shown

variable [Unicode] (front : Front) (c : OpCtx)

def shownChecksum (x : ChecksumFields) : ChecksumFields := fun a =>
  if c.g.checksums.support a = .refused then none else x a

def Encryption.shown (e : Encryption) : Encryption :=
  { e with sseKMSKeyId := clientKMSKeyID front c e.sseKMSKeyId }

def ObjectOutput.shown (out : ObjectOutput) : ObjectOutput :=
  { out with
    storageClass := clientStorageClass front c out.storageClass
    encryption := out.encryption.shown front c
    checksum := shownChecksum c out.checksum }

def SdkObject.shown (obj : SdkObject) : SdkObject :=
  { obj with
    storageClass := clientStorageClass front c obj.storageClass
    checksumAlgorithm := reportAlgorithms c obj.checksumAlgorithm
    owner := none }

def SdkVersion.shown (v : SdkVersion) : SdkVersion :=
  { v with
    storageClass := clientStorageClass front c v.storageClass
    checksumAlgorithm := reportAlgorithms c v.checksumAlgorithm
    owner := none }

def SdkUpload.shown (u : SdkUpload) : SdkUpload :=
  { u with
    storageClass := clientStorageClass front c u.storageClass
    checksumAlgorithm := reportAlgorithm c u.checksumAlgorithm
    owner := none
    initiator := none }

def SdkPart.shown (p : SdkPart) : SdkPart := { p with checksum := shownChecksum c p.checksum }

def SdkCopyResult.shown (r : SdkCopyResult) : SdkCopyResult :=
  { r with checksum := shownChecksum c r.checksum }

def SdkObjectParts.shown (parts : SdkObjectParts) : SdkObjectParts :=
  { parts with parts := parts.parts.map fun p => { p with checksum := shownChecksum c p.checksum } }

def SdkEncryptionRule.shown (rule : SdkEncryptionRule) : SdkEncryptionRule :=
  { rule with byDefault := rule.byDefault.map fun (alg, id) => (alg, clientKMSKeyID front c id) }

/-- An output without what the client is not to see: the names of the backend are gone,
    classes and keys are the client's, and checksums that are not offered are not there. -/
def SdkOutput.shown : SdkOutput → SdkOutput
  | .getObject out => .getObject { out with toObjectOutput := out.toObjectOutput.shown front c }
  | .headObject out => .headObject (out.shown front c)
  | .getObjectAttributes out => .getObjectAttributes
      { out with
        storageClass := clientStorageClass front c out.storageClass
        checksum := out.checksum.map fun (x, checksumType) => (shownChecksum c x, checksumType)
        objectParts := out.objectParts.map (SdkObjectParts.shown c) }
  | .putObject out => .putObject
      { out with
        encryption := out.encryption.shown front c, checksum := shownChecksum c out.checksum }
  | .listObjectsV2 out => .listObjectsV2
      { out with name := none, contents := out.contents.map (SdkObject.shown front c) }
  | .listObjects out => .listObjects
      { out with name := none, contents := out.contents.map (SdkObject.shown front c) }
  | .listObjectVersions out => .listObjectVersions
      { out with
        name := none
        versions := out.versions.map (SdkVersion.shown front c)
        deleteMarkers := out.deleteMarkers.map fun d => { d with owner := none } }
  | .listMultipartUploads out => .listMultipartUploads
      { out with bucket := none, uploads := out.uploads.map (SdkUpload.shown front c) }
  | .headBucket _ => .headBucket { bucketRegion := none, bucketLocationName := none }
  | .createMultipartUpload out => .createMultipartUpload
      { out with
        bucket := none
        checksumAlgorithm := reportAlgorithm c out.checksumAlgorithm
        encryption := out.encryption.shown front c }
  | .uploadPart out => .uploadPart
      { out with
        encryption := out.encryption.shown front c, checksum := shownChecksum c out.checksum }
  | .completeMultipartUpload out => .completeMultipartUpload
      { out with
        bucket := none
        location := none
        encryption := out.encryption.shown front c
        checksum := shownChecksum c out.checksum }
  | .listParts out => .listParts
      { out with
        bucket := none
        storageClass := clientStorageClass front c out.storageClass
        checksumAlgorithm := reportAlgorithm c out.checksumAlgorithm
        parts := out.parts.map (SdkPart.shown c)
        owner := none
        initiator := none }
  | .copyObject out => .copyObject
      { out with
        encryption := out.encryption.shown front c
        copyObjectResult := out.copyObjectResult.map (SdkCopyResult.shown c) }
  | .uploadPartCopy out => .uploadPartCopy
      { out with
        encryption := out.encryption.shown front c
        copyPartResult := out.copyPartResult.map (SdkCopyResult.shown c) }
  | .getBucketEncryption rules =>
    .getBucketEncryption (rules.map (·.map (SdkEncryptionRule.shown front c)))
  | out => out

def OpCtx.unmapped : OpCtx := { c with g := { c.g with storageClass := none, kmsKey := none } }

end Shown

/-! ## A response is one to what is shown -/

section Respond

variable (front : Front) (c : OpCtx)

@[simp] theorem unmapped_checksums : c.unmapped.g.checksums = c.g.checksums := rfl

@[simp] theorem unmapped_cfg : c.unmapped.cfg = c.cfg := rfl

@[simp] theorem unmapped_key : c.unmapped.key = c.key := rfl

@[simp] theorem unmapped_query : c.unmapped.query = c.query := rfl

@[simp] theorem unmapped_param (name : Bytes) : c.unmapped.param name = c.param name := rfl

@[simp] theorem clientStorageClass_unmapped (backendClass : Bytes) :
    clientStorageClass front c.unmapped backendClass = backendClass := rfl

@[simp] theorem clientKMSKeyID_unmapped (keyID : Option Bytes) :
    clientKMSKeyID front c.unmapped keyID = keyID := by
  cases keyID <;> rfl

theorem offered_shownChecksum (x : ChecksumFields) :
    c.g.checksums.offered (checksumsFrom (shownChecksum c x)) =
      c.g.checksums.offered (checksumsFrom x) := by
  unfold ChecksumPolicy.offered checksumsFrom shownChecksum
  induction Algorithm.all with
  | nil => rfl
  | cons a rest ih =>
    by_cases ha : c.g.checksums.support a = .refused
    · -- a value that is not offered is filtered out if it is there at all
      simp only [List.filterMap_cons, if_pos ha, ih]
      split
      · rfl
      · rename_i hvalue
        split at hvalue
        · split at hvalue
          · cases hvalue
          · cases hvalue
            simp [ha]
        · cases hvalue
    · simp only [List.filterMap_cons, if_neg ha]
      split
      · exact ih
      · simp only [List.filter_cons, ih]

@[simp] theorem reportChecksums_shown (x : ChecksumFields) :
    reportChecksums c.unmapped (shownChecksum c x) = reportChecksums c x := by
  rw [reportChecksums, unmapped_checksums, offered_shownChecksum, reportChecksums]

@[simp] theorem setSSEHeaders_shown (h : Header) (e : Encryption) :
    setSSEHeaders front c.unmapped h (e.shown front c) = setSSEHeaders front c h e := by
  simp [setSSEHeaders, Encryption.shown]

@[simp] theorem attributesParts_shown (parts : SdkObjectParts) :
    attributesParts c.unmapped (parts.shown c) = attributesParts c parts := by
  simp [attributesParts, SdkObjectParts.shown]

@[simp] theorem listedPart_shown (p : SdkPart) : listedPart c.unmapped (p.shown c) = listedPart c p := by
  simp [listedPart, SdkPart.shown]

@[simp] theorem encryptionRule_shown (rule : SdkEncryptionRule) :
    encryptionRule front c.unmapped (rule.shown front c) = encryptionRule front c rule := by
  simp [encryptionRule, SdkEncryptionRule.shown, Function.comp_def]

@[simp] theorem copyObjectResponse_shown (h : Header) (out : CopyObjectOutput) :
    copyObjectResponse front c.unmapped h
        { out with
          encryption := out.encryption.shown front c
          copyObjectResult := out.copyObjectResult.map (SdkCopyResult.shown c) } =
      copyObjectResponse front c h out := by
  obtain ⟨_, _, _, result⟩ := out
  cases result with
  | none => simp [copyObjectResponse]
  | some cr => simp [copyObjectResponse, SdkCopyResult.shown]

@[simp] theorem uploadPartCopyResponse_shown (h : Header) (out : UploadPartCopyOutput) :
    uploadPartCopyResponse front c.unmapped h
        { out with
          encryption := out.encryption.shown front c
          copyPartResult := out.copyPartResult.map (SdkCopyResult.shown c) } =
      uploadPartCopyResponse front c h out := by
  obtain ⟨_, _, result⟩ := out
  cases result with
  | none => simp [uploadPartCopyResponse]
  | some cr => simp [uploadPartCopyResponse, SdkCopyResult.shown]

@[simp] theorem deleteMarkerEntry_shown (d : SdkDeleteMarker) :
    deleteMarkerEntry c.unmapped { d with owner := none } = deleteMarkerEntry c d := rfl

variable [Unicode]

@[simp] theorem unmapped_objectLocation : objectLocation front c.unmapped = objectLocation front c := rfl

@[simp] theorem setChecksumHeaders_shown (h : Header) (x : ChecksumFields) (checksumType : Bytes) :
    setChecksumHeaders c.unmapped h (shownChecksum c x) checksumType =
      setChecksumHeaders c h x checksumType := by
  rw [setChecksumHeaders, unmapped_checksums, offered_shownChecksum, setChecksumHeaders]

@[simp] theorem reportAlgorithm_shown (name : Bytes) :
    reportAlgorithm c.unmapped (reportAlgorithm c name) = reportAlgorithm c name := by
  unfold reportAlgorithm
  by_cases h : name = [] ∨ c.g.checksums.supportOf name = .refused
  · simp [h]
  · simp only [unmapped_checksums, if_neg h]

@[simp] theorem reportAlgorithms_shown (algs : List Bytes) :
    reportAlgorithms c.unmapped (reportAlgorithms c algs) = reportAlgorithms c algs := by
  unfold reportAlgorithms
  induction algs with
  | nil => rfl
  | cons name rest ih =>
    by_cases h : reportAlgorithm c name = []
    · simpa [h] using ih
    · simpa [h] using ih

@[simp] theorem setObjectHeaders_shown (h : Header) (out : ObjectOutput) :
    setObjectHeaders front c.unmapped h (out.shown front c) = setObjectHeaders front c h out := by
  simp [setObjectHeaders, ObjectOutput.shown]

@[simp] theorem objectsFromSDK_shown (objects : List SdkObject) (owner : Option S3xml.Owner) :
    objectsFromSDK front c.unmapped (objects.map (SdkObject.shown front c)) owner =
      objectsFromSDK front c objects owner := by
  simp [objectsFromSDK, SdkObject.shown]

@[simp] theorem objectVersion_shown (v : SdkVersion) :
    objectVersion front c.unmapped (v.shown front c) = objectVersion front c v := by
  simp [objectVersion, SdkVersion.shown]

@[simp] theorem listedUpload_shown (u : SdkUpload) :
    listedUpload front c.unmapped (u.shown front c) = listedUpload front c u := by
  simp [listedUpload, SdkUpload.shown]

@[simp] theorem headObjectResponse_shown (h : Header) (out : ObjectOutput) :
    headObjectResponse front c.unmapped h (out.shown front c) = headObjectResponse front c h out := by
  simp only [headObjectResponse, setObjectHeaders_shown]
  simp only [ObjectOutput.shown, setChecksumHeaders_shown]

@[simp] theorem getObjectResponse_shown (h : Header) (out : GetObjectOutput) :
    getObjectResponse front c.unmapped h { out with toObjectOutput := out.toObjectOutput.shown front c } =
      getObjectResponse front c h out := by
  simp only [getObjectResponse, setObjectHeaders_shown]
  simp only [ObjectOutput.shown, setChecksumHeaders_shown]

end Respond

/-! ## Placements -/

/-- Where a bucket is placed and how its backend is spoken to: the two directions of each
    mapper, and the source of a copy under the backend's name for it. -/
structure Placement where
  backend : Backend
  copySource : Bytes
  storageClass : Option ((Op → Int → Bytes) × (Op → Bytes → Bytes))
  kmsKey : Option ((Op → Bytes → Bytes) × (Op → Bytes → Bytes))

def Front.placed (front : Front) (p : Placement) : Front :=
  { front with
    classToClient := p.storageClass.elim (fun _ backendClass => backendClass) (·.2)
    keyToClient := p.kmsKey.elim (fun _ keyID => keyID) (·.2) }

def OpCtx.placed (c : OpCtx) (p : Placement) : OpCtx :=
  { c with
    g := { c.g with storageClass := p.storageClass.map (·.1), kmsKey := p.kmsKey.map (·.1) }
    cfg := { c.cfg with backend := p.backend }
    copySource := p.copySource }

section Placements

variable [Unicode] (front : Front) (c : OpCtx)

/-- What the client is to see of a failure: not the wording, and of the header only what is
    relayed. -/
def SdkFailure.shown (f : SdkFailure) : SdkError × List Bytes :=
  ({ f.error with apiMessage := [] },
    relayedErrorHeaders.map fun k => f.header.elim [] (Header.get · k))

def shownReply : SdkReply → Except (SdkError × List Bytes) SdkOutput
  | .error f => .error f.shown
  | .ok out => .ok (out.shown front c)

/-- Replies from two placements of which the client may see the same. -/
def LookAlike (p p' : Placement) (reply reply' : SdkReply) : Prop :=
  shownReply (front.placed p) (c.placed p) reply = shownReply (front.placed p') (c.placed p') reply'

variable {front c} {p p' : Placement}

theorem LookAlike.cases {reply reply' : SdkReply} (h : LookAlike front c p p' reply reply') :
    (∃ f f', reply = .error f ∧ reply' = .error f' ∧ f.shown = f'.shown) ∨
      ∃ out out', reply = .ok out ∧ reply' = .ok out' ∧
        out.shown (front.placed p) (c.placed p) = out'.shown (front.placed p') (c.placed p') := by
  cases reply with
  | error f =>
    cases reply' with
    | error f' => exact .inl ⟨f, f', rfl, rfl, Except.error.inj h⟩
    | ok out' => cases h
  | ok out =>
    cases reply' with
    | error f' => cases h
    | ok out' => exact .inr ⟨out, out', rfl, rfl, Except.ok.inj h⟩

end Placements

/-! ### A bucket that moved -/

end S3Gateway.S3gw
