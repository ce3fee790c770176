import S3Gateway.S3gw.PostForm
import S3Gateway.S3gw.Dispatch
import S3Gateway.Library.ObjectStore

/-! # Browser uploads

`handlePostObject`: a form that its policy binds is authorized like a dispatched
operation and its file streamed to the backend.  The file's size is only known once it
is stored, so an undersized upload is undone by a delete. -/

namespace S3Gateway.S3gw

open Go S3err S3op Fallible Interaction
open Sigv4 (Fields PostPolicy)

def postFieldMapped : List Bytes := [
  str "key", str "bucket", str "acl",
  str "success_action_redirect", str "success_action_status",
  str "content-type", str "content-md5", str "cache-control",
  str "content-disposition", str "content-encoding",
  str "content-language", str "expires",
  hdrStorageClass, hdrTagging,
  hdrSSE, hdrSSEKMSKeyID,
  str "x-amz-algorithm", str "x-amz-credential",
  str "x-amz-date", str "x-amz-signature", str "policy",
  str "x-amz-security-token"]

/-- `checkPostFields(fields)`; of several unknown fields the first is named. -/
def checkPostFields (fields : Fields) : Option S3Error :=
  (fields.keys.find? fun name => !(name ∈ postFieldMapped || hasPrefix name amzMetaPrefix)).map
    fun name => notImplemented (str "form field " ++ name)

def postObjectRoute : Route :=
  ({ name := some .postObject, handle := .unknownOperation [] } : Route).bind.get (by decide +kernel)

def postFieldMeta (fields : Fields) : List (Bytes × Bytes) :=
  fields.entries.filterMap fun ⟨name, v⟩ => (cutPrefix name amzMetaPrefix).map (·, v)

def postObjectRequest (fields : Fields) : Option OpRequest :=
  let req : OpRequest :=
    { sse := fields.value hdrSSE, sseKMSKeyID := fields.value hdrSSEKMSKeyID,
      storageClass := fields.value hdrStorageClass, metadata := postFieldMeta fields }
  if req.empty then none else some req

def fieldHeader [Unicode] (fields : Fields) : SignedHeader :=
  postFieldHeader (fields.entries.map fun ⟨k, v⟩ => (k, v))

/-! ## The upload -/

/-- `lengthBoundedBody`, by its counters. -/
structure LengthBoundedBody where
  n : Int
  max : Int

def entityTooLarge : S3Error :=
  { status := 400, code := str "EntityTooLarge",
    message := str "Your proposed upload exceeds the maximum allowed size" }

def entityTooSmall : S3Error :=
  { status := 400, code := str "EntityTooSmall",
    message := str "Your proposed upload is smaller than the minimum allowed size" }

/-- `b.Read(p)` when the file yields `n` bytes. -/
def LengthBoundedBody.read (b : LengthBoundedBody) (n : Nat) : LengthBoundedBody × Option S3Error :=
  let b := { b with n := b.n + n }
  (b, if b.max < b.n then some entityTooLarge else none)

/-- Reads to the end of a file that comes in pieces of the given sizes, or to the first
    error. -/
def LengthBoundedBody.drain (b : LengthBoundedBody) : List Nat → LengthBoundedBody × Option S3Error
  | [] => (b, none)
  | n :: rest =>
    match b.read n with
    | (b, some e) => (b, some e)
    | (b, none) => b.drain rest

section Upload

variable [Unicode] (c : OpCtx) (fields : Fields) (pp : PostPolicy)

/-- The input `postPutObject` builds. -/
def postPutObjectInput : Except S3Error PutObjectInput := do
  let encryption ← c.applySSE (fieldHeader fields)
  .ok
    { bucket := c.cfg.backend.bucket
      key := c.key
      body := .postFile pp.maxLength
      contentLength := none
      contentType := present (fields.value (str "content-type"))
      contentMD5 := present (fields.value (str "content-md5"))
      cacheControl := present (fields.value (str "cache-control"))
      contentDisposition := present (fields.value (str "content-disposition"))
      contentEncoding := present (fields.value (str "content-encoding"))
      contentLanguage := present (fields.value (str "content-language"))
      expires := lenientTime c.dec.httpTime (fields.value (str "expires"))
      storageClass := c.backendStorageClass (fields.value hdrStorageClass) sizeUnknown
      tagging := present (fields.value hdrTagging)
      encryption
      metadata := postFieldMeta fields }

/-- The compensating delete of an undersized upload. -/
def undoInput (out : BackendOutput) : BackendCall :=
  { client := c.cfg.backend
    input := .deleteObject
      { bucket := c.cfg.backend.bucket, key := c.key, versionId := out.versionId } }

/-- What `postPutObject` does once the backend has answered the upload. -/
def postPutReply (reply : BackendReply) : HandlerProg :=
  match reply with
  | .error e => refuse (fromSDKError e c.r.url.path)
  | .ok out =>
    if out.bodyRead < pp.minLength then
      -- the delete's own outcome is ignored
      .call (undoInput c out) fun _ => refuse entityTooSmall
    else .pure (.ok .rendered)

def postPutObject : HandlerProg :=
  match postPutObjectInput c fields pp with
  | .error e => refuse e
  | .ok i => .call { client := c.cfg.backend, input := .putObject i } (postPutReply c pp)

end Upload

section Handle

variable [Unicode] (g : Gateway) (dec : Decoding) (r : Request) (form : Form) (t : Target)

/-- `handlePostObject` up to the hooks: the context of the upload, its fields and its
    policy. -/
def preparePost : Except S3Error (OpCtx × Fields × PostPolicy) := do
  failWith (ParamSet.check [] r.url.query)
  failWith (checkSSEC (newSignedHeader r []))
  let (fields, key) ← postForm form t.bucket
  let (vr, pp) ← verifyPostRequest g r fields
  failWith ((newSignedHeader r []).checkKnownAmzHeaders g.checksums.knownHeader)
  let b ← resolveBucket g vr t.bucket
  checkClient g b
  require (fields.value (str "acl") ∈ [[], str "private", str "bucket-owner-full-control"])
    errACLNotSupported
  failWith (checkPostFields fields)
  failWith (checkSSE (fieldHeader fields))
  let c := { opCtx g dec r b vr key with hdr := ⟨[], []⟩ }
  let actions ← authorizeRoute c postObjectRoute (fieldHeader fields) false
  .ok ({ c with
    op := { method := r.method, operation := some .postObject, actions, tenant := vr.tenant,
            user := vr.user, bucket := b.name, bucketOwner := b.tenant, key,
            request := postObjectRequest fields } }, fields, pp)

def handlePostObject : HandlerProg :=
  match preparePost g dec r form t with
  | .error e => refuse e
  | .ok (c, fields, pp) => runOp g c.op (postPutObject c fields pp)

end Handle

/-! ## What an upload is authorized for -/

section Prepared

variable [Unicode]

omit [Unicode] in
/-- Fields of distinct lower-case names, set as headers one by one, are read back by
    name. -/
theorem get_foldl_set {l : List (Sigma fun _ : Bytes => Bytes)} (hnodup : l.NodupKeys)
    (hlower : ∀ field ∈ l, NoCapital field.1) {name : Bytes} (hname : NoCapital name) (h : Header) :
    ((l.map fun ⟨k, v⟩ => (k, v)).foldl (fun h (k, v) => h.set k v) h).get name =
      (l.dlookup name).getD (h.get name) := by
  induction l generalizing h with
  | nil => rfl
  | cons field rest ih =>
    obtain ⟨k, v⟩ := field
    obtain ⟨hk, hrest⟩ := List.nodupKeys_cons.mp hnodup
    have hset := ih hrest (fun f hf => hlower f (List.mem_cons_of_mem _ hf)) (h.set k v)
    show ((rest.map fun ⟨k, v⟩ => (k, v)).foldl (fun h (k, v) => h.set k v) (h.set k v)).get name = _
    rw [hset, Header.get_set]
    by_cases heq : name = k
    · subst heq
      rw [List.dlookup_cons_eq, List.dlookup_eq_none.mpr hk, if_pos rfl]
      rfl
    · rw [List.dlookup_cons_ne _ _ heq, if_neg]
      exact fun hkey => heq (canonicalHeaderKey_inj hname (hlower _ List.mem_cons_self) hkey)

theorem fieldHeader_signedValue {fields : Fields} (hlower : LowerNames fields) {name : Bytes}
    (hname : NoCapital name) : (fieldHeader fields).signedValue name = fields.value name := by
  have hget : (fieldHeader fields).h.get name = fields.value name :=
    get_foldl_set fields.nodupKeys (fun f hf => hlower f.1 (List.mem_keys_of_mem hf)) hname []
  unfold SignedHeader.signedValue
  rw [hget]
  split
  · rfl
  · rename_i hunsigned
    -- every field is covered, so this one was not submitted
    unfold Sigv4.Fields.value
    cases hfield : fields.lookup name with
    | none => rfl
    | some v =>
      refine absurd ?_ hunsigned
      have hmem := List.of_mem_dlookup (Option.mem_def.mpr hfield)
      simp only [fieldHeader, postFieldHeader, List.map_map, List.mem_map]
      exact ⟨_, hmem, rfl⟩

/-- What stands behind an upload that is about to run. -/
structure PreparedPost (g : Gateway) (r : Request) (t : Target) (c : OpCtx) (fields : Fields)
    (pp : PostPolicy) : Prop where
  verified : verifyPostRequest g r fields = .ok (c.vr, pp)
  resolved : resolveBucket g c.vr t.bucket = .ok c.cfg
  key : c.key ≠ []
  operation : c.op.operation = some .postObject
  putObject : c.authorize .putObject = none
  tagging : fields.value hdrTagging ≠ [] → c.authorize .putObjectTagging = none

omit [Unicode] in
theorem postObjectRoute_actions :
    postObjectRoute.action = some .putObject ∧ postObjectRoute.versionAction = none ∧
      ⟨.signedPresent hdrTagging, .putObjectTagging⟩ ∈ postObjectRoute.hdrActions := by
  decide +kernel

theorem preparePost_eq_ok {g : Gateway} {dec : Decoding} {r : Request} {form : Form} {t : Target}
    {c : OpCtx} {fields : Fields} {pp : PostPolicy}
    (h : preparePost g dec r form t = .ok (c, fields, pp)) : PreparedPost g r t c fields pp := by
  obtain ⟨_, -, h⟩ := bind_eq_ok.mp h
  obtain ⟨_, -, h⟩ := bind_eq_ok.mp h
  obtain ⟨⟨fields, key⟩, hform, h⟩ := bind_eq_ok.mp h
  obtain ⟨⟨vr, pp⟩, hverified, h⟩ := bind_eq_ok.mp h
  obtain ⟨_, -, h⟩ := bind_eq_ok.mp h
  obtain ⟨b, hresolved, h⟩ := bind_eq_ok.mp h
  obtain ⟨_, -, h⟩ := bind_eq_ok.mp h
  obtain ⟨_, -, h⟩ := bind_eq_ok.mp h
  obtain ⟨_, -, h⟩ := bind_eq_ok.mp h
  obtain ⟨_, -, h⟩ := bind_eq_ok.mp h
  obtain ⟨actions, hroute, h⟩ := bind_eq_ok.mp h
  cases h
  obtain ⟨hlower, hkey⟩ := lowerNames_postForm hform
  obtain ⟨-, hauth, hmem⟩ := authorizeRoute_eq_ok hroute
  obtain ⟨haction, hversion, htagging⟩ := postObjectRoute_actions
  refine ⟨hverified, hresolved, hkey, rfl, ?_, fun hne => ?_⟩
  · refine hauth _ ((hmem _).mpr (.inl ⟨_, haction, ?_⟩))
    rw [hversion]
    rfl
  · refine hauth _ ((hmem _).mpr (.inr ⟨_, htagging, ?_, rfl⟩))
    show ((fieldHeader fields).signedValue hdrTagging != []) = true
    rw [fieldHeader_signedValue hlower (by unfold NoCapital; decide +kernel)]
    exact bne_iff_ne.mpr hne

/-- An input of an upload: the object of the form in its bucket and nothing else. -/
structure UploadsForm (c : OpCtx) (fields : Fields) (i : BackendInput) : Prop where
  operation : Sends .postObject i
  bucket : i.bucket = c.cfg.backend.bucket
  key : i.key = some c.key
  objects : i.objects = []
  tagging : i.tagging ≠ none → fields.value hdrTagging ≠ []
  lock : i.lock = {}
  bypass : i.bypassGovernance = false
  copySource : i.copySource = none

theorem postPutObject_eachCall (c : OpCtx) (fields : Fields) (pp : PostPolicy) :
    (postPutObject c fields pp).EachCall fun call =>
      call.client = c.cfg.backend ∧ UploadsForm c fields call.input := by
  unfold postPutObject
  split
  · trivial
  · rename_i i hi
    obtain ⟨encryption, -, hi⟩ := bind_eq_ok.mp hi
    cases hi
    refine ⟨⟨rfl, .form _, rfl, rfl, rfl, ?_, rfl, rfl, rfl⟩, fun reply => ?_⟩
    · exact fun hsome hempty => hsome (if_pos hempty)
    · unfold postPutReply
      split
      · trivial
      · split
        · refine ⟨⟨rfl, .undo .., rfl, rfl, rfl, ?_, rfl, rfl, rfl⟩, fun _ => trivial⟩
          exact fun hsome => absurd rfl hsome
        · trivial

end Prepared

/-! ## What a refused upload leaves behind -/

/-- Reading a file in any pieces fails exactly when it is larger than the maximum, and
    otherwise counts all of it. -/
theorem LengthBoundedBody.drain_spec (b : LengthBoundedBody) (hb : b.n ≤ b.max) (pieces : List Nat) :
    (b.drain pieces).2 = (if b.max < b.n + pieces.sum then some entityTooLarge else none) ∧
      (b.n + pieces.sum ≤ b.max → (b.drain pieces).1.n = b.n + pieces.sum) := by
  induction pieces generalizing b with
  | nil =>
    have hsum : b.n + (([] : List Nat).sum : Int) = b.n := by simp
    rw [hsum, if_neg (by omega)]
    exact ⟨rfl, fun _ => rfl⟩
  | cons n rest ih =>
    have hsum : b.n + ((n :: rest).sum : Int) = b.n + n + (rest.sum : Int) := by
      simp [Int.add_assoc]
    rw [hsum]
    by_cases hbig : b.max < b.n + n
    · -- this read is already over the maximum, and the rest only adds to it
      have hover : b.max < b.n + n + (rest.sum : Int) := by omega
      simp only [drain, read, if_pos hbig, if_pos hover, true_and]
      intro hle
      omega
    · simp only [drain, read, if_neg hbig]
      exact ih { b with n := b.n + n } (by simpa using hbig)

/-- A backend bucket under a POST upload.  A file arrives in `pieces`; writes and
    deletes may fail for reasons of the backend's own, and then change nothing. -/
structure UploadBackend (O : Type) where
  ids : ObjectStore.Ids Bytes
  content : PutObjectInput → O
  pieces : List Nat
  putFails : Option SdkError
  deleteFails : Option SdkError

namespace UploadBackend

variable {O : Type} (be : UploadBackend O)

def length : Int := be.pieces.sum

/-- The write of a file read through a bound: a failed read fails it. -/
def upload (s : ObjectStore.Bucket Bytes Bytes O) (i : PutObjectInput) (max : Int) :
    BackendReply × ObjectStore.Bucket Bytes Bytes O :=
  let (body, err) := LengthBoundedBody.drain { n := 0, max } be.pieces
  match err, be.putFails with
  | some e, _ => (.error { own := some e }, s)
  | none, some e => (.error e, s)
  | none, none =>
    let (s', versionId) := s.put be.ids i.key (be.content i)
    (.ok { versionId, bodyRead := body.n }, s')

def handle (s : ObjectStore.Bucket Bytes Bytes O) (call : BackendCall) :
    BackendReply × ObjectStore.Bucket Bytes Bytes O :=
  match call.input with
  | .putObject i =>
    match i.body with
    | .postFile max => be.upload s i max
    | _ => (.error {}, s)
  | .deleteObject i =>
    match be.deleteFails with
    | some e => (.error e, s)
    | none => (.ok {}, s.delete be.ids i.key i.versionId)
  | _ => (.error {}, s)

def Stores (pp : PostPolicy) : Prop := be.length ≤ pp.maxLength ∧ be.putFails = none

/-- Deleting what was written under the key brings the bucket back. -/
def Undone (s : ObjectStore.Bucket Bytes Bytes O) (i : PutObjectInput) : Prop :=
  match be.deleteFails with
  | none => (∃ versions, s = .versioned versions) ∨ s.Holds i.key none
  -- nothing is undone: the bucket is as before only if the write changed nothing
  | some _ => s.Holds i.key (some (be.content i))

end UploadBackend

section Refused

variable [Unicode] {O : Type} {c : OpCtx} {fields : Fields} {pp : PostPolicy}
  {i : PutObjectInput}

theorem postPutObjectInput_eq_ok (hi : postPutObjectInput c fields pp = .ok i) :
    i.key = c.key ∧ i.body = .postFile pp.maxLength := by
  obtain ⟨encryption, -, h⟩ := bind_eq_ok.mp hi
  cases h
  exact ⟨rfl, rfl⟩

omit [Unicode] in
theorem UploadBackend.upload_spec (be : UploadBackend O) (hmax : 0 ≤ pp.maxLength)
    (s : ObjectStore.Bucket Bytes Bytes O) (i : PutObjectInput) :
    (be.Stores pp ∧ be.upload s i pp.maxLength =
        (.ok { versionId := (s.put be.ids i.key (be.content i)).2, bodyRead := be.length },
          (s.put be.ids i.key (be.content i)).1)) ∨
      (¬be.Stores pp ∧ ∃ e, be.upload s i pp.maxLength = (.error e, s)) := by
  obtain ⟨herr, hcount⟩ := LengthBoundedBody.drain_spec { n := 0, max := pp.maxLength } hmax be.pieces
  rcases hdrain : LengthBoundedBody.drain { n := 0, max := pp.maxLength } be.pieces with ⟨body, err⟩
  simp only [zero_add, hdrain] at herr hcount
  unfold Stores upload length
  rw [hdrain]
  by_cases hbig : pp.maxLength < (be.pieces.sum : Int)
  · rw [if_pos hbig] at herr
    subst herr
    exact .inr ⟨fun h => by omega, _, rfl⟩
  · rw [if_neg hbig] at herr
    subst herr
    have hle : (be.pieces.sum : Int) ≤ pp.maxLength := by omega
    rw [← hcount hle]
    cases hfail : be.putFails with
    | some e => exact .inr ⟨by simp, e, rfl⟩
    | none => exact .inl ⟨⟨by omega, rfl⟩, rfl⟩

def UploadBackend.undo (be : UploadBackend O) (s : ObjectStore.Bucket Bytes Bytes O)
    (i : PutObjectInput) : ObjectStore.Bucket Bytes Bytes O :=
  let (stored, versionId) := s.put be.ids i.key (be.content i)
  match be.deleteFails with
  | some _ => stored
  | none => stored.delete be.ids i.key versionId

omit [Unicode] in
theorem UploadBackend.undo_eq_self_iff (be : UploadBackend O) (s : ObjectStore.Bucket Bytes Bytes O)
    (i : PutObjectInput) : be.undo s i = s ↔ be.Undone s i := by
  unfold undo Undone
  cases be.deleteFails with
  | none => exact ObjectStore.Bucket.delete_put_eq_self_iff ..
  | some e => exact ObjectStore.Bucket.put_eq_self_iff ..

theorem postPutObject_run (be : UploadBackend O) (hmax : 0 ≤ pp.maxLength) (hi : postPutObjectInput c fields pp = .ok i)
    (s : ObjectStore.Bucket Bytes Bytes O) :
    (¬be.Stores pp ∧ ∃ e, (postPutObject c fields pp).run be.handle s = (.error e, s)) ∨
      (be.Stores pp ∧ be.length < pp.minLength ∧
        (postPutObject c fields pp).run be.handle s = (.error entityTooSmall, be.undo s i)) ∨
      (be.Stores pp ∧ pp.minLength ≤ be.length ∧
        ∃ a s', (postPutObject c fields pp).run be.handle s = (.ok a, s')) := by
  obtain ⟨hkey, hbody⟩ := postPutObjectInput_eq_ok hi
  have hhandle : be.handle s { client := c.cfg.backend, input := .putObject i } =
      be.upload s i pp.maxLength := by
    simp only [UploadBackend.handle, hbody]
  have hrun : (postPutObject c fields pp).run be.handle s =
      (postPutReply c pp (be.upload s i pp.maxLength).1).run be.handle
        (be.upload s i pp.maxLength).2 := by
    unfold postPutObject
    rw [hi, ← hhandle]
    rfl
  obtain ⟨hstores, hup⟩ | ⟨hstores, e, hup⟩ := be.upload_spec hmax s i
  · rw [hup] at hrun
    by_cases hsmall : be.length < pp.minLength
    · refine .inr (.inl ⟨hstores, hsmall, ?_⟩)
      simp only [postPutReply, if_pos hsmall] at hrun
      rw [hrun]
      -- the compensating delete names the version the write returned
      unfold UploadBackend.undo
      rw [hkey]
      cases hfail : be.deleteFails <;> simp [Prog.run, UploadBackend.handle, undoInput, refuse, hfail]
    · refine .inr (.inr ⟨hstores, by omega, ?_⟩)
      simp only [postPutReply, if_neg hsmall] at hrun
      exact ⟨_, _, hrun⟩
  · rw [hup] at hrun
    exact .inl ⟨hstores, _, hrun⟩

/-- An upload that is refused leaves the bucket as it was exactly when nothing was
    written or deleting what was written brings the bucket back. -/
theorem postPutObject_refused_restores_iff (be : UploadBackend O) (c : OpCtx) (fields : Fields)
    (pp : PostPolicy) (hmax : 0 ≤ pp.maxLength) (s s' : ObjectStore.Bucket Bytes Bytes O) (e : S3Error)
    (hrun : (postPutObject c fields pp).run be.handle s = (.error e, s')) :
    s' = s ↔ (be.Stores pp → ∀ i, postPutObjectInput c fields pp = .ok i → be.Undone s i) := by
  cases hi : postPutObjectInput c fields pp with
  | error e' =>
    -- the form's encryption is refused before any call
    unfold postPutObject at hrun
    rw [hi] at hrun
    obtain ⟨-, rfl⟩ := Prod.mk.inj hrun
    exact ⟨fun _ _ _ h => (nomatch h), fun _ => rfl⟩
  | ok i =>
    obtain ⟨hstores, e', h⟩ | ⟨hstores, -, h⟩ | ⟨-, -, a, s'', h⟩ := postPutObject_run be hmax hi s
    · rw [h] at hrun
      obtain ⟨-, rfl⟩ := Prod.mk.inj hrun
      exact ⟨fun _ h => absurd h hstores, fun _ => rfl⟩
    · rw [h] at hrun
      obtain ⟨-, rfl⟩ := Prod.mk.inj hrun
      rw [be.undo_eq_self_iff]
      constructor
      · rintro h - i' hi'
        cases hi'
        exact h
      · exact fun h => h hstores i rfl
    · rw [h] at hrun
      exact absurd (Prod.mk.inj hrun).1 (by simp)

end Refused

/-! A bucket that holds one object, and a form that wants five bytes and gets one. -/

def counterIds : ObjectStore.Ids Bytes where
  -- longer than all that are in use together
  next used := ch 'v' :: used.flatten
  fresh used h := by
    have hle : (ch 'v' :: used.flatten).length ≤ used.flatten.length :=
      (List.sublist_flatten_of_mem h).length_le
    rw [List.length_cons] at hle
    omega

def oneByteUpload : UploadBackend Nat where
  ids := counterIds
  content _ := 1
  pieces := [1]
  putFails := none
  deleteFails := none

/-- A gateway that takes the sample form for one of the owner of `sharedBucket`. -/
def uploadGateway : Gateway :=
  { sharedDeleteCtx.g with
    store :=
      { getBucket := fun tenant _ => if tenant = sharedBucket.tenant then .ok sharedBucket else .error .notFound
        getBucketByName := fun _ => .ok sharedBucket
        listBuckets := fun _ => .ok []
        getBucket_tenant := fun h => by
          split at h
          · rename_i htenant
            cases h
            exact htenant.symm
          · cases h }
    verifier := sampleVerifier
    postCodec := repeatedCodec 0
    identity := fun _ _ => ⟨str "tb", str "bob", none⟩ }

/-- `POST /b`. -/
def uploadRequest : Request := ⟨str "POST", str "/b", { path := str "/b" }, str "h", [], 0, []⟩

/-- The upload the gateway prepares for the sample form. -/
def PreparesSample [Unicode] (c : OpCtx) (fields : Fields) (pp : PostPolicy) : Prop :=
  preparePost uploadGateway sharedDeleteCtx.dec uploadRequest (sampleForm 0) { bucket := str "b", key := [] } =
    .ok (c, fields, pp)

theorem exists_preparesSample : let _ := asciiTables
    ∃ c fields pp, PreparesSample c fields pp ∧ pp.minLength = 5 ∧ pp.maxLength = 10 ∧
      (postPutObjectInput c fields pp).isOk = true := by
  intro _
  have hrun : (preparePost uploadGateway sharedDeleteCtx.dec uploadRequest (sampleForm 0)
      { bucket := str "b", key := [] }).toOption.any (fun p =>
        p.2.2.minLength == 5 && p.2.2.maxLength == 10 && (postPutObjectInput p.1 p.2.1 p.2.2).isOk) = true := by
    decide +kernel
  unfold PreparesSample
  cases h : preparePost uploadGateway sharedDeleteCtx.dec uploadRequest (sampleForm 0)
      { bucket := str "b", key := [] } with
  | error e =>
    rw [h] at hrun
    cases hrun
  | ok p =>
    rw [h, Except.toOption, Option.any_some] at hrun
    simp only [Bool.and_eq_true, beq_iff_eq] at hrun
    exact ⟨p.1, p.2.1, p.2.2, rfl, hrun.1.1, hrun.1.2, hrun.2⟩

theorem oneByteUpload_undersized : let _ := asciiTables
    ∃ c fields pp i, PreparesSample c fields pp ∧ 0 ≤ pp.maxLength ∧ i.key = c.key ∧
      ∀ s : ObjectStore.Bucket Bytes Bytes Nat, (postPutObject c fields pp).run oneByteUpload.handle s =
        (.error entityTooSmall, oneByteUpload.undo s i) := by
  intro _
  obtain ⟨c, fields, pp, hprepares, hmin, hmax, hok⟩ := exists_preparesSample
  cases hi : postPutObjectInput c fields pp with
  | error e =>
    rw [hi] at hok
    cases hok
  | ok i =>
    have hlength : oneByteUpload.length = 1 := rfl
    refine ⟨c, fields, pp, i, hprepares, by omega, (postPutObjectInput_eq_ok hi).1, fun s => ?_⟩
    have hstores : oneByteUpload.Stores pp := ⟨by omega, rfl⟩
    obtain ⟨h, -⟩ | ⟨-, -, h⟩ | ⟨-, h, -⟩ := postPutObject_run oneByteUpload (by omega) hi s
    · exact absurd hstores h
    · exact h
    · omega

/-- Without versions the object that was there before is gone. -/
theorem undersized_upload_removes_prior_object : let _ := asciiTables
    ∃ c fields pp, PreparesSample c fields pp ∧ ∃ objects : Bytes → Option Nat,
      (postPutObject c fields pp).run oneByteUpload.handle (.unversioned fun _ => some 0) =
        (.error entityTooSmall, .unversioned objects) ∧ objects c.key = none := by
  intro _
  obtain ⟨c, fields, pp, i, hprepares, -, hkey, hrun⟩ := oneByteUpload_undersized
  refine ⟨c, fields, pp, hprepares, _, hrun _, ?_⟩
  rw [← hkey]
  simp [oneByteUpload, Function.update_self]

/-- With versions the history is as before. -/
theorem undersized_upload_keeps_history : let _ := asciiTables
    ∃ c fields pp, PreparesSample c fields pp ∧
      (postPutObject c fields pp).run oneByteUpload.handle (.versioned fun _ => [⟨[], some 0⟩]) =
        (.error entityTooSmall, .versioned fun _ => [⟨[], some 0⟩]) := by
  intro _
  obtain ⟨c, fields, pp, i, hprepares, hmax, -, hrun⟩ := oneByteUpload_undersized
  have hhistory := hrun (.versioned fun _ => [⟨[], some 0⟩])
  have hsame := (postPutObject_refused_restores_iff oneByteUpload c fields pp hmax _ _ _ hhistory).mpr
    fun _ i _ => .inl ⟨_, rfl⟩
  refine ⟨c, fields, pp, hprepares, ?_⟩
  rw [hhistory, hsame]

end S3Gateway.S3gw
