import S3Gateway.S3gw.Forwarding

/-! # Routes

The route tables of `handler.go`.  A route names its operation; `bind` fills in what
it authorizes from the catalog, and panics at package initialisation when the two do
not fit.  The predicates and handlers a route holds as functions are enumerated. -/

namespace S3Gateway.S3gw

open Go S3err S3op

/-! ## Query parameters -/

def subACL : Bytes := str "acl"
def subCORS : Bytes := str "cors"
def subDelete : Bytes := str "delete"
def subEncryption : Bytes := str "encryption"
def subLegalHold : Bytes := str "legal-hold"
def subLocation : Bytes := str "location"
def subObjectLock : Bytes := str "object-lock"
def subOwnership : Bytes := str "ownershipControls"
def subPolicy : Bytes := str "policy"
def subPolicyStatus : Bytes := str "policyStatus"
def subPublicAccess : Bytes := str "publicAccessBlock"
def subAttributes : Bytes := str "attributes"
def subRetention : Bytes := str "retention"
def subTagging : Bytes := str "tagging"
def subUploads : Bytes := str "uploads"
def subVersioning : Bytes := str "versioning"
def subVersions : Bytes := str "versions"

/-- `paramSet`: the query parameters an operation accepts. -/
abbrev ParamSet := List Bytes

def noParams : ParamSet := []
def aclOnlyParams : ParamSet := [subACL]
def policyOnlyParams : ParamSet := [subPolicy]
def corsOnlyParams : ParamSet := [subCORS]
def objectLockOnlyParams : ParamSet := [subObjectLock]
def retentionParams : ParamSet := [subRetention, qpVersionID]
def legalHoldParams : ParamSet := [subLegalHold, qpVersionID]
def aclParams : ParamSet := [subACL, qpVersionID]
def locationOnlyParams : ParamSet := [subLocation]
def deleteOnlyParams : ParamSet := [subDelete]
def uploadsOnlyParams : ParamSet := [subUploads]
def uploadIDOnlyParams : ParamSet := [qpUploadID]
def versionIDOnlyParams : ParamSet := [qpVersionID]
def versioningOnlyParams : ParamSet := [subVersioning]
def encryptionOnlyParams : ParamSet := [subEncryption]
def policyStatusOnlyParams : ParamSet := [subPolicyStatus]
def ownershipOnlyParams : ParamSet := [subOwnership]
def publicAccessOnlyParams : ParamSet := [subPublicAccess]
def taggingParams : ParamSet := [subTagging, qpVersionID]
def uploadPartParams : ParamSet := [qpUploadID, qpPartNumber]
def listPartsParams : ParamSet := [qpUploadID, str "max-parts", str "part-number-marker"]

def listObjectsV1Params : ParamSet :=
  [str "prefix", str "delimiter", str "marker", str "max-keys", str "encoding-type"]

def listObjectsV2Params : ParamSet :=
  [qpListType, str "prefix", str "delimiter", str "max-keys", str "continuation-token",
    str "start-after", str "fetch-owner", str "encoding-type"]

def listObjectVersionsParams : ParamSet :=
  [subVersions, str "prefix", str "delimiter", str "key-marker", str "version-id-marker",
    str "max-keys", str "encoding-type"]

def listMultipartUploadsParams : ParamSet :=
  [subUploads, str "prefix", str "delimiter", str "key-marker", str "upload-id-marker",
    str "max-uploads", str "encoding-type"]

def getObjectParams : ParamSet :=
  [qpVersionID, qpPartNumber, str "response-content-type", str "response-content-disposition",
    str "response-cache-control", str "response-content-encoding",
    str "response-content-language", str "response-expires"]

def headObjectParams : ParamSet := [qpVersionID, qpPartNumber]
def listBucketsParams : ParamSet := [str "max-buckets", str "continuation-token"]
def attributesParams : ParamSet := [subAttributes, qpVersionID]

/-- `p.check(query)`.  Go walks the map in no fixed order; here the first unknown
    parameter in wire order is the one named. -/
def ParamSet.check [Unicode] (p : ParamSet) (query : Values) : Option S3Error :=
  (query.keys.find? fun k =>
    k ≠ str "x-id" && !hasPrefix (toLower k) (str "x-amz-") && !p.contains k).map fun k =>
      notImplemented (str "query parameter " ++ k)

/-! ## A route -/

/-- The `match` functions of the tables; `always` is the nil of a fallback route. -/
inductive Match where
  | always
  | has (key : Bytes)
  | hasListTypeV2
  | hasUploadPart
  | noQuery
deriving DecidableEq

def Match.holds (q : Values) : Match → Bool
  | always => true
  | has key => q.has key
  | hasListTypeV2 => q.get qpListType == str "2"
  | hasUploadPart => q.has qpUploadID || q.has qpPartNumber
  | noQuery => q.isEmpty

/-- When a header-conditional authorization applies. -/
inductive Presence where
  | signedPresent (name : Bytes)
  | bypassGovernanceRetention
deriving DecidableEq

def Presence.holds [Unicode] (hdr : SignedHeader) : Presence → Bool
  | signedPresent name => hdr.signedValue name != []
  | bypassGovernanceRetention => S3gw.bypassGovernanceRetention hdr

def headerPresence : List (Bytes × Presence) := [
  (hdrTagging, .signedPresent hdrTagging),
  (hdrObjectLockMode, .signedPresent hdrObjectLockMode),
  (hdrObjectLockRetainUntil, .signedPresent hdrObjectLockRetainUntil),
  (hdrObjectLockLegalHold, .signedPresent hdrObjectLockLegalHold),
  (hdrBypassGovernanceRetention, .bypassGovernanceRetention)]

/-- `headerPresence[header]`. -/
def presenceOf (header : Bytes) : Option Presence := headerPresence.lookup header

structure HeaderAction where
  present : Presence
  action : Action
deriving DecidableEq

/-- `route`.  `name` is `none` for `OpUnknown`, `params` is `none` where the check is
    skipped, and the fields after `handle` are filled in by `bind`. -/
structure Route where
  match_ : Match := .always
  params : Option ParamSet := none
  aclHdr : Bool := false
  attrs : Bool := false
  name : Option OpName
  copy : Option OpName := none
  handle : Handler
  action : Option Action := none
  versionAction : Option Action := none
  hdrActions : List HeaderAction := []
  copyAction : Option Action := none
  copyVersionAction : Option Action := none
deriving DecidableEq

/-! ## Binding -/

def onTarget (op : Operation) : List Authorization := op.authorizations.filter (·.on = .target)

/-- `targetAuthorizations(op)`: the loop over `onTarget`, `none` for its panics. -/
def targetAuthorizationsLoop : List Authorization → Option Action × Option Action →
    List HeaderAction → Option (Option Action × Option Action × List HeaderAction)
  | [], (action, versionAction), hdr => some (action, versionAction, hdr)
  | a :: rest, (action, versionAction), hdr =>
    match a.header with
    | none =>
      if action.isSome then none
      else targetAuthorizationsLoop rest (some a.action, a.versionAction) hdr
    | some h =>
      match presenceOf h with
      | none => none
      | some present =>
        targetAuthorizationsLoop rest (action, versionAction)
          (hdr ++ [{ present, action := a.action }])

def targetAuthorizations (op : Operation) :
    Option (Option Action × Option Action × List HeaderAction) :=
  targetAuthorizationsLoop (onTarget op) (none, none) []

/-- `rt.bind()`; `none` is a panic. -/
def Route.bind (rt : Route) : Option Route :=
  match rt.name with
  | none => some rt
  | some name => do
    let op ← lookup name
    let (action, versionAction, hdrActions) ← targetAuthorizations op
    let rt := { rt with action, versionAction, hdrActions }
    match rt.copy with
    | none => some rt
    | some copy =>
      let cp ← lookup copy
      match cp.authorizations.filter (·.on = .copySource) with
      | [src] =>
        if onTarget cp ≠ onTarget op ∨ src.header.isSome ∨
            (onTarget cp).length + 1 ≠ cp.authorizations.length then none
        else some { rt with copyAction := some src.action, copyVersionAction := src.versionAction }
      | _ => none

/-! ## The tables -/

def Route.notImplemented (match_ : Match) (name : OpName) : Route :=
  { match_, name := some name, handle := .notImplemented name }

def Route.unknownOperation (what : Bytes) : Route :=
  { name := none, handle := .unknownOperation what }

def bucketTable : List (Bytes × List Route) := [
  (str "GET", [
    { match_ := .has subUploads, params := some listMultipartUploadsParams,
      name := some .listMultipartUploads, handle := .listMultipartUploads },
    { match_ := .has subLocation, params := some locationOnlyParams,
      name := some .getBucketLocation, handle := .getBucketLocation },
    { match_ := .has subACL, params := some aclOnlyParams,
      name := some .getBucketAcl, handle := .getBucketACL },
    { match_ := .has subPolicy, params := some policyOnlyParams,
      name := some .getBucketPolicy, handle := .getBucketPolicy },
    { match_ := .has subCORS, params := some corsOnlyParams,
      name := some .getBucketCors, handle := .getBucketCors },
    { match_ := .has subObjectLock, params := some objectLockOnlyParams,
      name := some .getObjectLockConfiguration, handle := .getObjectLockConfiguration },
    { match_ := .has subVersioning, params := some versioningOnlyParams,
      name := some .getBucketVersioning, handle := .getBucketVersioning },
    { match_ := .has subEncryption, params := some encryptionOnlyParams,
      name := some .getBucketEncryption, handle := .getBucketEncryption },
    { match_ := .has subPolicyStatus, params := some policyStatusOnlyParams,
      name := some .getBucketPolicyStatus, handle := .getBucketPolicyStatus },
    { match_ := .has subOwnership, params := some ownershipOnlyParams,
      name := some .getBucketOwnershipControls, handle := .getBucketOwnershipControls },
    { match_ := .has subPublicAccess, params := some publicAccessOnlyParams,
      name := some .getPublicAccessBlock, handle := .getPublicAccessBlock },
    { match_ := .has subVersions, params := some listObjectVersionsParams,
      name := some .listObjectVersions, handle := .listObjectVersions },
    { match_ := .hasListTypeV2, params := some listObjectsV2Params,
      name := some .listObjectsV2, handle := .listObjectsV2 },
    { params := some listObjectsV1Params, name := some .listObjects, handle := .listObjectsV1 }]),
  (str "HEAD", [{ name := some .headBucket, handle := .headBucket }]),
  (str "PUT", [
    { match_ := .has subACL, name := some .putBucketAcl, handle := .rejectACL },
    .notImplemented (.has subVersioning) .putBucketVersioning,
    .notImplemented (.has subObjectLock) .putObjectLockConfiguration,
    .notImplemented (.has subPolicy) .putBucketPolicy,
    .notImplemented (.has subCORS) .putBucketCors,
    .notImplemented (.has subEncryption) .putBucketEncryption,
    .notImplemented (.has subOwnership) .putBucketOwnershipControls,
    .notImplemented (.has subPublicAccess) .putPublicAccessBlock,
    .notImplemented .noQuery .createBucket,
    .unknownOperation (str "this bucket operation")]),
  (str "DELETE", [
    .notImplemented (.has subPolicy) .deleteBucketPolicy,
    .notImplemented (.has subCORS) .deleteBucketCors,
    .notImplemented (.has subEncryption) .deleteBucketEncryption,
    .notImplemented (.has subOwnership) .deleteBucketOwnershipControls,
    .notImplemented (.has subPublicAccess) .deletePublicAccessBlock,
    .notImplemented .noQuery .deleteBucket,
    .unknownOperation (str "this bucket operation")]),
  (str "POST", [
    { match_ := .has subDelete, params := some deleteOnlyParams,
      name := some .deleteObjects, handle := .deleteObjects },
    .unknownOperation (str "this bucket operation")])]

def objectTable : List (Bytes × List Route) := [
  (str "GET", [
    { match_ := .has qpUploadID, params := some listPartsParams,
      name := some .listParts, handle := .listParts },
    { match_ := .has subTagging, params := some taggingParams,
      name := some .getObjectTagging, handle := .getObjectTagging },
    { match_ := .has subACL, params := some aclParams,
      name := some .getObjectAcl, handle := .getObjectACL },
    { match_ := .has subRetention, params := some retentionParams,
      name := some .getObjectRetention, handle := .getObjectRetention },
    { match_ := .has subLegalHold, params := some legalHoldParams,
      name := some .getObjectLegalHold, handle := .getObjectLegalHold },
    { match_ := .has subAttributes, params := some attributesParams,
      name := some .getObjectAttributes, handle := .getObjectAttributes },
    { params := some getObjectParams, name := some .getObject, handle := .getObject }]),
  (str "HEAD", [
    { params := some headObjectParams, name := some .headObject, handle := .headObject }]),
  (str "PUT", [
    { match_ := .has subTagging, params := some taggingParams,
      name := some .putObjectTagging, handle := .putObjectTagging },
    { match_ := .has subACL, name := some .putObjectAcl, handle := .rejectACL },
    { match_ := .has subRetention, params := some retentionParams,
      name := some .putObjectRetention, handle := .putObjectRetention },
    { match_ := .has subLegalHold, params := some legalHoldParams,
      name := some .putObjectLegalHold, handle := .putObjectLegalHold },
    { match_ := .hasUploadPart, params := some uploadPartParams,
      name := some .uploadPart, copy := some .uploadPartCopy, handle := .uploadPartOrCopy },
    { params := some noParams, aclHdr := true, attrs := true,
      name := some .putObject, copy := some .copyObject, handle := .putObjectOrCopy }]),
  (str "DELETE", [
    { match_ := .has qpUploadID, params := some uploadIDOnlyParams,
      name := some .abortMultipartUpload, handle := .abortMultipartUpload },
    { match_ := .has subTagging, params := some taggingParams,
      name := some .deleteObjectTagging, handle := .deleteObjectTagging },
    { params := some versionIDOnlyParams, name := some .deleteObject, handle := .deleteObject }]),
  (str "POST", [
    { match_ := .has subUploads, params := some uploadsOnlyParams, aclHdr := true, attrs := true,
      name := some .createMultipartUpload, handle := .createMultipartUpload },
    { match_ := .has qpUploadID, params := some uploadIDOnlyParams,
      name := some .completeMultipartUpload, handle := .completeMultipartUpload },
    .unknownOperation (str "this operation")])]

def bindRoutes (table : List (Bytes × List Route)) : Option (List (Bytes × List Route)) :=
  table.mapM fun (method, routes) => (routes.mapM Route.bind).map (method, ·)

theorem bucketTable_binds : (bindRoutes bucketTable).isSome = true := by decide +kernel

theorem objectTable_binds : (bindRoutes objectTable).isSome = true := by decide +kernel

def bucketRoutes : List (Bytes × List Route) := (bindRoutes bucketTable).get bucketTable_binds

def objectRoutes : List (Bytes × List Route) := (bindRoutes objectTable).get objectTable_binds

/-! ## Binding takes every authorization of the catalog -/

theorem targetAuthorizationsLoop_of_set {l : List Authorization} {act act' : Option Action}
    {va va' : Option Action} {hs hs' : List HeaderAction} (hact : act.isSome = true)
    (h : targetAuthorizationsLoop l (act, va) hs = some (act', va', hs')) :
    act' = act ∧ va' = va ∧ ∀ z ∈ l, z.header.isSome = true := by
  induction l generalizing hs with
  | nil =>
    cases h
    exact ⟨rfl, rfl, fun z hz => absurd hz List.not_mem_nil⟩
  | cons z rest ih =>
    rw [targetAuthorizationsLoop] at h
    split at h
    · rw [if_pos hact] at h
      cases h
    · rename_i hz
      split at h
      · cases h
      · obtain ⟨ha, hv, hrest⟩ := ih h
        refine ⟨ha, hv, fun z' hz' => ?_⟩
        rcases List.mem_cons.mp hz' with rfl | hz'
        · rw [hz]
          rfl
        · exact hrest z' hz'

/-- The unconditional action a route is bound to is the one unconditional
    authorization on the target. -/
theorem targetAuthorizationsLoop_action {l : List Authorization} {act va : Option Action}
    {hs hs' : List HeaderAction}
    (h : targetAuthorizationsLoop l (none, none) hs = some (act, va, hs')) :
    ∀ a v, (act = some a ∧ va = v) ↔
      (∃ z ∈ l, z.header = none ∧ z.action = a ∧ z.versionAction = v) := by
  -- on the authorizations: the first without a header sets the action, and a second one panics
  induction l generalizing hs with
  | nil =>
    cases h
    simp
  | cons z rest ih =>
    rw [targetAuthorizationsLoop] at h
    intro a v
    split at h
    · rename_i hz
      obtain ⟨rfl, rfl, hrest⟩ := targetAuthorizationsLoop_of_set rfl h
      constructor
      · rintro ⟨ha, hv⟩
        exact ⟨z, List.mem_cons_self, hz, Option.some.inj ha, hv⟩
      · rintro ⟨z', hz', hnone, ha, hv⟩
        rcases List.mem_cons.mp hz' with rfl | hz'
        · exact ⟨congrArg some ha, hv⟩
        · have hsome := hrest z' hz'
          rw [hnone] at hsome
          cases hsome
    · rename_i hz
      split at h
      · cases h
      · rw [ih h a v, List.exists_mem_cons_iff]
        constructor
        · exact .inr
        · rintro (⟨hnone, -⟩ | hrest)
          · rw [hz] at hnone
            cases hnone
          · exact hrest

/-- The header actions a route is bound to are the header-conditional authorizations
    on the target. -/
theorem targetAuthorizationsLoop_headers {l : List Authorization} {acts : Option Action × Option Action}
    {act va : Option Action} {hs hs' : List HeaderAction}
    (h : targetAuthorizationsLoop l acts hs = some (act, va, hs')) :
    ∀ ha, ha ∈ hs' ↔ ha ∈ hs ∨ ∃ z ∈ l, z.action = ha.action ∧
      z.header.bind presenceOf = some ha.present := by
  -- on the authorizations, with the header actions collected so far
  induction l generalizing acts hs with
  | nil =>
    cases h
    simp
  | cons z rest ih =>
    rw [targetAuthorizationsLoop] at h
    intro ha
    split at h
    · rename_i hz
      split at h
      · cases h
      · rw [ih h ha, List.exists_mem_cons_iff, hz]
        simp
    · rename_i name hz
      split at h
      · cases h
      · rename_i present hp
        rw [ih h ha, List.exists_mem_cons_iff, hz, List.mem_append, List.mem_singleton, or_assoc]
        have hhead : ha = { present, action := z.action } ↔
            z.action = ha.action ∧ (some name).bind presenceOf = some ha.present := by
          rw [Option.bind_some, hp]
          cases ha
          simp [eq_comm, and_comm]
        rw [hhead]

/-- A route as `bind` leaves it, beside the catalog entry of its operation. -/
structure Route.Bound (rt : Route) (op : Operation) : Prop where
  action : ∀ a v, (rt.action = some a ∧ rt.versionAction = v) ↔
    ∃ z ∈ onTarget op, z.header = none ∧ z.action = a ∧ z.versionAction = v
  hdrActions : ∀ ha, ha ∈ rt.hdrActions ↔
    ∃ z ∈ onTarget op, z.action = ha.action ∧ z.header.bind presenceOf = some ha.present
  copy : ∀ {name a}, rt.copy = some name → rt.copyAction = some a → ∃ cp src,
    lookup name = some cp ∧ onTarget cp = onTarget op ∧
      cp.authorizations.filter (·.on = .copySource) = [src] ∧ a = src.action ∧
        rt.copyVersionAction = src.versionAction

theorem Route.bound_of_bind {rt rt' : Route} {name : OpName} (hname : rt.name = some name)
    (h : rt.bind = some rt') : ∃ op, lookup name = some op ∧ rt'.Bound op := by
  unfold Route.bind at h
  rw [hname] at h
  obtain ⟨op, hop, h⟩ := Option.bind_eq_some_iff.mp h
  obtain ⟨⟨action, versionAction, hdrActions⟩, htarget, h⟩ := Option.bind_eq_some_iff.mp h
  have hact := targetAuthorizationsLoop_action htarget
  have hhdr : ∀ ha, ha ∈ hdrActions ↔ ∃ z ∈ onTarget op, z.action = ha.action ∧
      z.header.bind presenceOf = some ha.present := by
    intro ha
    rw [targetAuthorizationsLoop_headers htarget ha]
    simp
  -- a route without a copy variant is done here; one with it has passed the comparison of the two
  dsimp only at h
  refine ⟨op, hop, ?_⟩
  split at h
  · rename_i hcopy
    cases h
    exact ⟨hact, hhdr, fun hc _ => by rw [hcopy] at hc; cases hc⟩
  · rename_i copy hcopy
    obtain ⟨cp, hcp, h⟩ := Option.bind_eq_some_iff.mp h
    split at h
    · rename_i src hsrc
      split at h
      · cases h
      · rename_i hfit
        cases h
        refine ⟨hact, hhdr, fun {name' a} hc ha => ?_⟩
        obtain rfl : copy = name' := Option.some.inj (hcopy.symm.trans hc)
        refine ⟨cp, src, hcp, ?_, hsrc, (Option.some.inj ha).symm, rfl⟩
        by_contra hne
        exact hfit (.inl hne)
    · cases h

/-! ## The tables against the handlers -/

def uploadHeaderActions : List HeaderAction := [
  ⟨.signedPresent hdrTagging, .putObjectTagging⟩,
  ⟨.signedPresent hdrObjectLockMode, .putObjectRetention⟩,
  ⟨.signedPresent hdrObjectLockRetainUntil, .putObjectRetention⟩,
  ⟨.signedPresent hdrObjectLockLegalHold, .putObjectLegalHold⟩]

/-- A route authorizes whatever its handler forwards. -/
def Route.covers (object : Bool) (rt : Route) : Prop :=
  (rt.handle = .deleteObjects → rt.name = some .deleteObjects ∧ rt.copy = none) ∧
  ∀ f, rt.handle.forwards = some f →
    f.object = object ∧ rt.name = some f.operation ∧ rt.action.isSome = true ∧
    (rt.versionAction.isSome = true → f.version = true) ∧
    (f.upload = true → ∀ ha ∈ uploadHeaderActions, ha ∈ rt.hdrActions) ∧
    (f.bypass = true →
      ⟨.bypassGovernanceRetention, .bypassGovernanceRetention⟩ ∈ rt.hdrActions) ∧
    f.copy = rt.copy ∧ rt.copy.isSome = rt.copyAction.isSome ∧
    ∀ a ∈ rt.copyAction.toList ++ rt.copyVersionAction.toList,
      a ∉ rt.action.toList ++ rt.versionAction.toList ++ rt.hdrActions.map (·.action)

instance (object : Bool) (rt : Route) : Decidable (rt.covers object) :=
  inferInstanceAs (Decidable (_ ∧ ∀ f, rt.handle.forwards = some f → _))

theorem mem_of_lookup {table : List (Bytes × List Route)} {method : Bytes} {routes : List Route}
    (h : table.lookup method = some routes) : (method, routes) ∈ table := by
  obtain ⟨before, after, rfl, -⟩ := List.lookup_eq_some_iff.mp h
  exact List.mem_append_right _ List.mem_cons_self

theorem bucketRoutes_cover : ∀ p ∈ bucketRoutes, ∀ rt ∈ p.2, rt.bind = some rt ∧ rt.covers false := by
  decide +kernel

theorem objectRoutes_cover : ∀ p ∈ objectRoutes, ∀ rt ∈ p.2, rt.bind = some rt ∧ rt.covers true := by
  decide +kernel

end S3Gateway.S3gw
