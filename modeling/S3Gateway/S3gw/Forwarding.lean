import S3Gateway.S3gw.Handlers
import S3Gateway.Library.Fallible

/-! # What handlers forward

Each handler reads the request again on its own.  `Handler.forwards` says, per
handler, which of the security-relevant parts of an input it fills in, and
`run_forwards` that it fills them in from the operation's context and from nowhere
else.  Authorization is argued from this table and never from a handler's code. -/

namespace S3Gateway.S3gw

open Go S3err S3op Interaction

/-- The inputs an operation sends.  A `GetObjectAcl` only asks whether the object is there, and
    a browser upload stores a file, which it deletes again when it was too short. -/
inductive Sends : OpName → BackendInput → Prop where
  | own {name : OpName} {i : BackendInput} (h : i.operation = name) : Sends name i
  | probe (bucket key : Bytes) (versionId : Option Bytes) :
      Sends .getObjectAcl (.headObject { bucket, key, versionId })
  | form (i : PutObjectInput) : Sends .postObject (.putObject i)
  | undo (bucket key : Bytes) (versionId : Option Bytes) :
      Sends .postObject (.deleteObject { bucket, key, versionId })

/-- The operation of a handler, that of its copy variant, and the parts of a backend input it
    takes from the request. -/
structure Forwards where
  operation : OpName
  copy : Option OpName := none
  object : Bool := true
  version : Bool := false
  /-- the tags and the object lock of an upload -/
  upload : Bool := false
  bypass : Bool := false
deriving DecidableEq

/-- The operation that runs, given the copy source. -/
def Forwards.runs (f : Forwards) (copySource : Bytes) : OpName :=
  match f.copy with
  | none => f.operation
  | some copy => if copySource = [] then f.operation else copy

theorem Forwards.runs_nil (f : Forwards) : f.runs [] = f.operation := by
  unfold Forwards.runs
  cases f.copy <;> rfl

theorem Forwards.runs_copy {f : Forwards} {copy : OpName} {copySource : Bytes} (hcopy : f.copy = some copy)
    (hsource : copySource ≠ []) : f.runs copySource = copy := by
  rw [Forwards.runs, hcopy]
  exact if_neg hsource

/-- `none` for a handler that makes no call, and for `deleteObjects`, which names its
    objects one by one. -/
def Handler.forwards : Handler → Option Forwards
  | listMultipartUploads => some { operation := .listMultipartUploads, object := false }
  | getObjectLockConfiguration => some { operation := .getObjectLockConfiguration, object := false }
  | getBucketVersioning => some { operation := .getBucketVersioning, object := false }
  | getBucketEncryption => some { operation := .getBucketEncryption, object := false }
  | listObjectVersions => some { operation := .listObjectVersions, object := false }
  | listObjectsV2 => some { operation := .listObjectsV2, object := false }
  | listObjectsV1 => some { operation := .listObjects, object := false }
  | headBucket => some { operation := .headBucket, object := false }
  | getObjectTagging => some { operation := .getObjectTagging, version := true }
  | getObjectACL => some { operation := .getObjectAcl, version := true }
  | getObjectRetention => some { operation := .getObjectRetention, version := true }
  | getObjectLegalHold => some { operation := .getObjectLegalHold, version := true }
  | getObjectAttributes => some { operation := .getObjectAttributes, version := true }
  | getObject => some { operation := .getObject, version := true }
  | headObject => some { operation := .headObject, version := true }
  | putObjectTagging => some { operation := .putObjectTagging, version := true }
  | putObjectLegalHold => some { operation := .putObjectLegalHold, version := true }
  | deleteObjectTagging => some { operation := .deleteObjectTagging, version := true }
  | putObjectRetention => some { operation := .putObjectRetention, version := true, bypass := true }
  | deleteObject => some { operation := .deleteObject, version := true, bypass := true }
  | createMultipartUpload => some { operation := .createMultipartUpload, upload := true }
  | putObjectOrCopy => some { operation := .putObject, copy := some .copyObject, upload := true }
  | uploadPartOrCopy => some { operation := .uploadPart, copy := some .uploadPartCopy }
  | listParts => some { operation := .listParts }
  | abortMultipartUpload => some { operation := .abortMultipartUpload }
  | completeMultipartUpload => some { operation := .completeMultipartUpload }
  | getBucketLocation | getBucketACL | getBucketPolicy | getBucketCors | getBucketPolicyStatus
  | getBucketOwnershipControls | getPublicAccessBlock | deleteObjects | rejectACL
  | notImplemented _ | unknownOperation _ => none

section

variable [Unicode] (c : OpCtx)

/-- The input is filled in from the context as `f` says. -/
structure Forwarded (f : Forwards) (i : BackendInput) : Prop where
  operation : Sends (f.runs c.copySource) i
  bucket : i.bucket = c.cfg.backend.bucket
  key : i.key = if f.object then some c.key else none
  versionId : i.versionId = if f.version then c.versionId else none
  tagging : i.tagging = if f.upload then present (c.signed hdrTagging) else none
  lock : i.lock = if f.upload then objectLockHeaders c else {}
  bypass : i.bypassGovernance = (f.bypass && bypassGovernanceRetention c.hdr)
  objects : i.objects = []
  copySource : i.copySource = if f.copy.isSome && c.copySource != [] then some c.copySource else none

variable {c}

omit [Unicode] in
theorem proxied_eachCall {input : Except S3Error BackendInput} {P : BackendCall → Prop} :
    (proxied c input).EachCall P ↔ ∀ i, input = .ok i → P { client := c.cfg.backend, input := i } := by
  cases input with
  | error e => simp [proxied, refuse]
  | ok i =>
    simp only [proxied, Prog.EachCall, Except.ok.injEq, forall_eq']
    refine ⟨fun h => h.1, fun h => ⟨h, fun reply => ?_⟩⟩
    cases reply <;> trivial

theorem getObjectInput_forwarded {i : BackendInput} (h : getObjectInput c = .ok i) :
    Forwarded c { operation := .getObject, version := true } i := by
  obtain ⟨partNumber, -, h⟩ := Fallible.bind_eq_ok.mp h
  cases h
  exact ⟨.own rfl, rfl, rfl, rfl, rfl, rfl, rfl, rfl, rfl⟩

theorem headObjectInput_forwarded {i : BackendInput} (h : headObjectInput c = .ok i) :
    Forwarded c { operation := .headObject, version := true } i := by
  obtain ⟨partNumber, -, h⟩ := Fallible.bind_eq_ok.mp h
  cases h
  exact ⟨.own rfl, rfl, rfl, rfl, rfl, rfl, rfl, rfl, rfl⟩

theorem getObjectAttributesInput_forwarded {i : BackendInput}
    (h : getObjectAttributesInput c = .ok i) :
    Forwarded c { operation := .getObjectAttributes, version := true } i := by
  unfold getObjectAttributesInput at h
  dsimp only at h
  split at h
  · cases h
  · obtain ⟨maxParts, -, h⟩ := Fallible.bind_eq_ok.mp h
    cases h
    exact ⟨.own rfl, rfl, rfl, rfl, rfl, rfl, rfl, rfl, rfl⟩

theorem listing_forwarded {page : Except S3Error (Option Int)} {input : Option Int → BackendInput}
    {f : Forwards} (hinput : ∀ n, Forwarded c f (input n)) {i : BackendInput}
    (h : (page >>= fun n => .ok (input n)) = .ok i) : Forwarded c f i := by
  obtain ⟨n, -, h⟩ := Fallible.bind_eq_ok.mp h
  cases h
  exact hinput n

theorem listPartsInput_forwarded {i : BackendInput} (h : listPartsInput c = .ok i) :
    Forwarded c { operation := .listParts } i := by
  obtain ⟨maxParts, -, h⟩ := Fallible.bind_eq_ok.mp h
  cases h
  exact ⟨.own rfl, rfl, rfl, rfl, rfl, rfl, rfl, rfl, rfl⟩

theorem putObjectInput_forwarded (hcopy : c.copySource = []) {i : BackendInput}
    (h : putObjectInput c = .ok i) :
    Forwarded c { operation := .putObject, copy := some .copyObject, upload := true } i := by
  obtain ⟨⟨body, length⟩, -, h⟩ := Fallible.bind_eq_ok.mp h
  obtain ⟨contentMD5, -, h⟩ := Fallible.bind_eq_ok.mp h
  obtain ⟨encryption, -, h⟩ := Fallible.bind_eq_ok.mp h
  cases h
  refine ⟨?_, rfl, rfl, rfl, rfl, rfl, rfl, rfl, ?_⟩
  · rw [hcopy, Forwards.runs_nil]
    exact .own rfl
  · rw [hcopy]
    rfl

theorem copyObjectInput_forwarded (hcopy : c.copySource ≠ []) {i : BackendInput}
    (h : copyObjectInput c = .ok i) :
    Forwarded c { operation := .putObject, copy := some .copyObject, upload := true } i := by
  obtain ⟨checksumAlgorithm, -, h⟩ := Fallible.bind_eq_ok.mp h
  obtain ⟨encryption, -, h⟩ := Fallible.bind_eq_ok.mp h
  cases h
  refine ⟨?_, rfl, rfl, rfl, rfl, rfl, rfl, rfl, ?_⟩
  · rw [Forwards.runs_copy rfl hcopy]
    exact .own rfl
  · simp [BackendInput.copySource, hcopy]

theorem createMultipartUploadInput_forwarded {i : BackendInput}
    (h : createMultipartUploadInput c = .ok i) :
    Forwarded c { operation := .createMultipartUpload, upload := true } i := by
  obtain ⟨checksumAlgorithm, -, h⟩ := Fallible.bind_eq_ok.mp h
  obtain ⟨encryption, -, h⟩ := Fallible.bind_eq_ok.mp h
  cases h
  exact ⟨.own rfl, rfl, rfl, rfl, rfl, rfl, rfl, rfl, rfl⟩

theorem uploadPartInput_forwarded (hcopy : c.copySource = []) {i : BackendInput}
    (h : uploadPartInput c = .ok i) :
    Forwarded c { operation := .uploadPart, copy := some .uploadPartCopy } i := by
  obtain ⟨partNumber, -, h⟩ := Fallible.bind_eq_ok.mp h
  obtain ⟨⟨body, length⟩, -, h⟩ := Fallible.bind_eq_ok.mp h
  obtain ⟨contentMD5, -, h⟩ := Fallible.bind_eq_ok.mp h
  cases h
  refine ⟨?_, rfl, rfl, rfl, rfl, rfl, rfl, rfl, ?_⟩
  · rw [hcopy, Forwards.runs_nil]
    exact .own rfl
  · rw [hcopy]
    rfl

theorem uploadPartCopyInput_forwarded (hcopy : c.copySource ≠ []) {i : BackendInput}
    (h : uploadPartCopyInput c = .ok i) :
    Forwarded c { operation := .uploadPart, copy := some .uploadPartCopy } i := by
  obtain ⟨partNumber, -, h⟩ := Fallible.bind_eq_ok.mp h
  cases h
  refine ⟨?_, rfl, rfl, rfl, rfl, rfl, rfl, rfl, ?_⟩
  · rw [Forwards.runs_copy rfl hcopy]
    exact .own rfl
  · simp [BackendInput.copySource, hcopy]

theorem completeMultipartUploadInput_forwarded {i : BackendInput}
    (h : completeMultipartUploadInput c = .ok i) :
    Forwarded c { operation := .completeMultipartUpload } i := by
  obtain ⟨parts, -, h⟩ := Fallible.bind_eq_ok.mp h
  dsimp only at h
  split at h
  · cases h
  · obtain ⟨_, -, h⟩ := Fallible.bind_eq_ok.mp h
    cases h
    exact ⟨.own rfl, rfl, rfl, rfl, rfl, rfl, rfl, rfl, rfl⟩

theorem deleteObjectInput_forwarded {i : BackendInput} (h : deleteObjectInput c = .ok i) :
    Forwarded c { operation := .deleteObject, version := true, bypass := true } i := by
  obtain ⟨lastModified, -, h⟩ := Fallible.bind_eq_ok.mp h
  obtain ⟨size, -, h⟩ := Fallible.bind_eq_ok.mp h
  cases h
  exact ⟨.own rfl, rfl, rfl, rfl, rfl, rfl, rfl, rfl, rfl⟩

theorem putObjectTaggingInput_forwarded {i : BackendInput} (h : putObjectTaggingInput c = .ok i) :
    Forwarded c { operation := .putObjectTagging, version := true } i := by
  obtain ⟨tags, -, h⟩ := Fallible.bind_eq_ok.mp h
  cases h
  exact ⟨.own rfl, rfl, rfl, rfl, rfl, rfl, rfl, rfl, rfl⟩

theorem putObjectRetentionInput_forwarded {i : BackendInput}
    (h : putObjectRetentionInput c = .ok i) :
    Forwarded c { operation := .putObjectRetention, version := true, bypass := true } i := by
  obtain ⟨req, -, h⟩ := Fallible.bind_eq_ok.mp h
  obtain ⟨retainUntilDate, -, h⟩ := Fallible.bind_eq_ok.mp h
  cases h
  exact ⟨.own rfl, rfl, rfl, rfl, rfl, rfl, rfl, rfl, rfl⟩

theorem putObjectLegalHoldInput_forwarded {i : BackendInput}
    (h : putObjectLegalHoldInput c = .ok i) :
    Forwarded c { operation := .putObjectLegalHold, version := true } i := by
  obtain ⟨status, -, h⟩ := Fallible.bind_eq_ok.mp h
  cases h
  exact ⟨.own rfl, rfl, rfl, rfl, rfl, rfl, rfl, rfl, rfl⟩

/-- The one fact about handlers later proofs use: every call goes to the bucket's own
    backend with an input filled in as the handler's entry says. -/
theorem run_forwards {h : Handler} {f : Forwards} (hf : h.forwards = some f) :
    (h.run c).EachCall fun call => call.client = c.cfg.backend ∧ Forwarded c f call.input := by
  -- an input given outright, and one that may fail to build
  have given : ∀ {i : BackendInput}, Forwarded c f i →
      (proxied c (.ok i)).EachCall fun call =>
        call.client = c.cfg.backend ∧ Forwarded c f call.input := by
    intro i hi
    refine proxied_eachCall.mpr ?_
    rintro _ ⟨⟩
    exact ⟨rfl, hi⟩
  have built : ∀ {input : Except S3Error BackendInput}, (∀ i, input = .ok i → Forwarded c f i) →
      (proxied c input).EachCall fun call =>
        call.client = c.cfg.backend ∧ Forwarded c f call.input :=
    fun hinput => proxied_eachCall.mpr fun i hi => ⟨rfl, hinput i hi⟩
  cases h <;> cases hf
  case listMultipartUploads | listObjectVersions | listObjectsV2 | listObjectsV1 =>
    refine built fun i hi => listing_forwarded (fun n => ?_) hi
    exact ⟨.own rfl, rfl, rfl, rfl, rfl, rfl, rfl, rfl, rfl⟩
  case getObjectLockConfiguration | getBucketVersioning | getBucketEncryption | headBucket
      | getObjectTagging | getObjectRetention | getObjectLegalHold | abortMultipartUpload
      | deleteObjectTagging =>
    refine given ?_
    exact ⟨.own rfl, rfl, rfl, rfl, rfl, rfl, rfl, rfl, rfl⟩
  case getObjectACL =>
    refine given ?_
    exact ⟨.probe .., rfl, rfl, rfl, rfl, rfl, rfl, rfl, rfl⟩
  case listParts => exact built fun i hi => listPartsInput_forwarded hi
  case getObjectAttributes => exact built fun i hi => getObjectAttributesInput_forwarded hi
  case getObject => exact built fun i hi => getObjectInput_forwarded hi
  case headObject => exact built fun i hi => headObjectInput_forwarded hi
  case putObjectTagging => exact built fun i hi => putObjectTaggingInput_forwarded hi
  case putObjectRetention => exact built fun i hi => putObjectRetentionInput_forwarded hi
  case putObjectLegalHold => exact built fun i hi => putObjectLegalHoldInput_forwarded hi
  case deleteObject => exact built fun i hi => deleteObjectInput_forwarded hi
  case createMultipartUpload => exact built fun i hi => createMultipartUploadInput_forwarded hi
  case completeMultipartUpload =>
    exact built fun i hi => completeMultipartUploadInput_forwarded hi
  case uploadPartOrCopy =>
    refine built fun i hi => ?_
    by_cases hcopy : c.copySource = []
    · rw [if_neg (not_not.mpr hcopy)] at hi
      exact uploadPartInput_forwarded hcopy hi
    · rw [if_pos hcopy] at hi
      exact uploadPartCopyInput_forwarded hcopy hi
  case putObjectOrCopy =>
    refine built fun i hi => ?_
    by_cases hcopy : c.copySource = []
    · rw [if_neg (not_not.mpr hcopy)] at hi
      exact putObjectInput_forwarded hcopy hi
    · rw [if_pos hcopy] at hi
      exact copyObjectInput_forwarded hcopy hi

theorem run_silent {h : Handler} (hf : h.forwards = none) (hdel : h ≠ .deleteObjects)
    (P : BackendCall → Prop) : (h.run c).EachCall P := by
  cases h <;> try cases hf
  case deleteObjects => exact absurd rfl hdel
  case getBucketPolicy =>
    simp only [Handler.run, getBucketPolicy]
    split <;> trivial
  case getBucketCors =>
    simp only [Handler.run, getBucketCors]
    split <;> trivial
  all_goals trivial

end

end S3Gateway.S3gw
