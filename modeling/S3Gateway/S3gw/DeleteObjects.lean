import S3Gateway.S3gw.Context
import S3Gateway.Library.Fallible

/-! # DeleteObjects

`deleteObjects` resolves up to three authorizers before its loop and skips the
per-object test when none of them can deny anything.  The program it runs is the
plain one: forward the entries `authorize` lets through, report the others. -/

namespace S3Gateway.S3gw

open Go S3err S3op Policy

/-! ## The handler -/

/-- `op.addDenial(r)`: one entry per layer and statement. -/
def addDenial : List Denial → DenyReason → List Denial
  | [], r => [{ reason := r, keys := 1 }]
  | d :: rest, r =>
    if d.reason.layer = r.layer ∧ d.reason.statement = r.statement then
      { d with keys := d.keys + 1 } :: rest
    else d :: addDenial rest r

/-- The authorizers built before the loop. -/
structure DeleteAuthorizers where
  delAuth : PerObjectAuthorizer
  verAuth : PerObjectAuthorizer
  bypass : Bool
  bypassAuth : PerObjectAuthorizer
  checkPerObject : Bool

/-- What the loop has collected. -/
structure DeleteProgress where
  objects : List ObjectIdentifier := []
  errors : List DeleteError := []
  denials : List Denial := []

section Handler

variable [Unicode] (c : OpCtx)

def deleteAuthorizers (objects : List DeleteRequestObject) : DeleteAuthorizers :=
  let hasVersion := objects.any (·.versionID ≠ [])
  let hasPlain := objects.any (·.versionID = [])
  let build := fun (needed : Bool) (action : Action) =>
    if needed then perObjectAuthorizer c.vr c.cfg action.name else .zero
  let bypass := bypassGovernanceRetention c.hdr
  let delAuth := build hasPlain .deleteObject
  let verAuth := build hasVersion .deleteObjectVersion
  let bypassAuth := build bypass .bypassGovernanceRetention
  { delAuth, verAuth, bypass, bypassAuth
    checkPerObject := (hasPlain && !delAuth.allowsEverything) ||
      (hasVersion && !verAuth.allowsEverything) || (bypass && !bypassAuth.allowsEverything) }

def entryResource (o : DeleteRequestObject) : Bytes := c.cfg.name ++ str "/" ++ o.key

/-- Why an entry is refused, `none` when it is not. -/
def entryDenial (a : DeleteAuthorizers) (o : DeleteRequestObject) : Option DenyReason :=
  if !a.checkPerObject then none
  else
    let resource := entryResource c o
    let auth := if o.versionID ≠ [] then a.verAuth else a.delAuth
    if auth.denies resource then some (auth.denyReason resource)
    else if a.bypass && a.bypassAuth.denies resource then some (a.bypassAuth.denyReason resource)
    else none

def deleteErrorOf (o : DeleteRequestObject) : DeleteError :=
  { key := o.key, versionId := o.versionID, code := accessDenied.code,
    message := accessDenied.message }

/-- The `ObjectIdentifier` of a forwarded entry. -/
def objectIdentifier (o : DeleteRequestObject) : Except S3Error ObjectIdentifier := do
  let lastModifiedTime ← parsePresent o.lastModifiedTime c.dec.httpTime (malformedXML.withCause .other)
  .ok { key := o.key, versionId := present o.versionID, etag := present o.etag, lastModifiedTime,
        size := o.size }

def deleteLoop (a : DeleteAuthorizers) :
    List DeleteRequestObject → DeleteProgress → Except S3Error DeleteProgress
  | [], p => .ok p
  | o :: rest, p =>
    match entryDenial c a o with
    | some reason =>
      deleteLoop a rest
        { p with errors := p.errors ++ [deleteErrorOf o], denials := addDenial p.denials reason }
    | none => do
      let oi ← objectIdentifier c o
      deleteLoop a rest { p with objects := p.objects ++ [oi] }

def deleteObjectsInput (req : DeleteRequest) (objects : List ObjectIdentifier) : BackendCall :=
  { client := c.cfg.backend
    input := .deleteObjects
      { bucket := c.cfg.backend.bucket, objects, quiet := req.quiet,
        bypassGovernanceRetention := bypassGovernanceRetention c.hdr } }

/-- The rest of the handler once the loop is through. -/
def deleteForward (req : DeleteRequest) (p : DeleteProgress) : HandlerProg :=
  if p.objects.length = 0 then
    .pure (.ok (.deleteResult { deleted := [], errors := p.errors } p.denials))
  else
    .call (deleteObjectsInput c req p.objects) fun reply =>
      match reply with
      | .error e => refuse (fromSDKError e c.r.url.path)
      | .ok out =>
        .pure (.ok (.deleteResult
          { deleted := out.deleted, errors := p.errors ++ out.errors } p.denials))

def deleteObjects : HandlerProg :=
  match readXMLBody c c.dec.xmlDelete with
  | .error e => refuse e
  | .ok req =>
    if req.objects.length = 0 ∨ 1000 < req.objects.length then refuse malformedXML
    else
      match deleteLoop c (deleteAuthorizers c req.objects) req.objects {} with
      | .error e => refuse e
      | .ok p => deleteForward c req p

end Handler

/-! ## The plain handler -/

section Plain

variable [Unicode] (c : OpCtx)

def entryAction (o : DeleteRequestObject) : Action :=
  if o.versionID ≠ [] then .deleteObjectVersion else .deleteObject

/-- `authorize` lets the entry through, and lets governance mode be bypassed on it
    when the request asks for that. -/
def entryPermitted (o : DeleteRequestObject) : Prop :=
  authorize c.vr c.cfg (entryAction o).name (entryResource c o) = none ∧
    (bypassGovernanceRetention c.hdr = true →
      authorize c.vr c.cfg Action.bypassGovernanceRetention.name (entryResource c o) = none)

instance (o : DeleteRequestObject) : Decidable (entryPermitted c o) :=
  inferInstanceAs (Decidable (_ ∧ (_ → _)))

/-! ## Refinement -/

/-- The authorizer the loop picks for an entry of the request is the one built for
    the entry's action. -/
theorem entryAuth_eq {objects : List DeleteRequestObject} {o : DeleteRequestObject}
    (ho : o ∈ objects) :
    (if o.versionID ≠ [] then (deleteAuthorizers c objects).verAuth
      else (deleteAuthorizers c objects).delAuth) =
      perObjectAuthorizer c.vr c.cfg (entryAction o).name := by
  by_cases hv : o.versionID = []
  · have hplain : objects.any (·.versionID = []) = true :=
      List.any_eq_true.mpr ⟨o, ho, by simpa using hv⟩
    simp [deleteAuthorizers, entryAction, hv, hplain]
  · have hversion : objects.any (·.versionID ≠ []) = true :=
      List.any_eq_true.mpr ⟨o, ho, by simpa using hv⟩
    simp only [deleteAuthorizers, entryAction, ne_eq, hv, not_false_eq_true, if_true]
    exact if_pos hversion

theorem bypassAuth_eq (objects : List DeleteRequestObject)
    (hb : bypassGovernanceRetention c.hdr = true) :
    (deleteAuthorizers c objects).bypassAuth =
      perObjectAuthorizer c.vr c.cfg Action.bypassGovernanceRetention.name := by
  simp [deleteAuthorizers, hb]

/-- When the per-object test is skipped, every authorizer it would have used lets
    everything through. -/
theorem allowsEverything_of_skipped {objects : List DeleteRequestObject}
    {o : DeleteRequestObject} (ho : o ∈ objects)
    (hskip : (deleteAuthorizers c objects).checkPerObject = false) :
    (perObjectAuthorizer c.vr c.cfg (entryAction o).name).allowsEverything = true ∧
      (bypassGovernanceRetention c.hdr = true →
        (perObjectAuthorizer c.vr c.cfg
          Action.bypassGovernanceRetention.name).allowsEverything = true) := by
  have hauth := entryAuth_eq c ho
  simp only [deleteAuthorizers, Bool.or_eq_false_iff, Bool.and_eq_false_imp,
    Bool.not_eq_false'] at hskip
  obtain ⟨⟨hdel, hver⟩, hbypass⟩ := hskip
  constructor
  · rw [← hauth]
    by_cases hv : o.versionID = []
    · rw [if_neg (not_not.mpr hv)]
      exact hdel (List.any_eq_true.mpr ⟨o, ho, by simpa using hv⟩)
    · rw [if_pos hv]
      exact hver (List.any_eq_true.mpr ⟨o, ho, by simpa using hv⟩)
  · intro hb
    rw [← bypassAuth_eq c objects hb]
    exact hbypass hb

theorem entryDenial_eq_none_iff (objects : List DeleteRequestObject) {o : DeleteRequestObject}
    (ho : o ∈ objects) :
    entryDenial c (deleteAuthorizers c objects) o = none ↔ entryPermitted c o := by
  have hentry := perObjectAuthorizer_denies_iff c.vr c.cfg (entryAction o).name (entryResource c o)
  have hbypass := perObjectAuthorizer_denies_iff c.vr c.cfg
    Action.bypassGovernanceRetention.name (entryResource c o)
  unfold entryDenial entryPermitted
  by_cases hcheck : (deleteAuthorizers c objects).checkPerObject = true
  · simp only [hcheck, Bool.not_true, Bool.false_eq_true, if_false, entryAuth_eq c ho]
    by_cases hb : bypassGovernanceRetention c.hdr = true
    · have hflag : (deleteAuthorizers c objects).bypass = true := hb
      rw [bypassAuth_eq c objects hb, hflag, ← hentry, ← hbypass]
      cases (perObjectAuthorizer c.vr c.cfg (entryAction o).name).denies (entryResource c o) <;>
        cases (perObjectAuthorizer c.vr c.cfg Action.bypassGovernanceRetention.name).denies
          (entryResource c o) <;> simp [hb]
    · have hflag : (deleteAuthorizers c objects).bypass = false := Bool.eq_false_iff.mpr hb
      rw [hflag, ← hentry]
      cases (perObjectAuthorizer c.vr c.cfg (entryAction o).name).denies (entryResource c o) <;>
        simp [hb]
  · have hskip : (deleteAuthorizers c objects).checkPerObject = false := by simpa using hcheck
    obtain ⟨hall, hallBypass⟩ := allowsEverything_of_skipped c ho hskip
    simp only [hskip, Bool.not_false, if_true, true_iff]
    refine ⟨hentry.mp (PerObjectAuthorizer.denies_of_allowsEverything hall _), fun hb => ?_⟩
    exact hbypass.mp (PerObjectAuthorizer.denies_of_allowsEverything (hallBypass hb) _)

/-- The loop over entries whose times parse: it collects the permitted ones in
    order, reports the others in order, and never fails. -/
theorem deleteLoop_eq {a : DeleteAuthorizers} {objects : List DeleteRequestObject}
    (hdenial : ∀ o ∈ objects, entryDenial c a o = none ↔ entryPermitted c o)
    {oi : DeleteRequestObject → ObjectIdentifier}
    (hoi : ∀ o ∈ objects, objectIdentifier c o = .ok (oi o)) (p : DeleteProgress) :
    ∃ denials, deleteLoop c a objects p = .ok
      { objects := p.objects ++ (objects.filter fun o => entryPermitted c o).map oi
        errors := p.errors ++ (objects.filter fun o => ¬entryPermitted c o).map deleteErrorOf
        denials } := by
  induction objects generalizing p with
  | nil => exact ⟨p.denials, by simp [deleteLoop]⟩
  | cons o rest ih =>
    have ih := ih (fun o' h => hdenial o' (List.mem_cons_of_mem _ h))
      (fun o' h => hoi o' (List.mem_cons_of_mem _ h))
    have ho := hdenial o List.mem_cons_self
    rw [deleteLoop]
    cases hd : entryDenial c a o with
    | none =>
      have hperm : entryPermitted c o := ho.mp hd
      simp only [hoi o List.mem_cons_self, bind, Except.bind]
      obtain ⟨denials, hloop⟩ := ih { p with objects := p.objects ++ [oi o] }
      refine ⟨denials, hloop.trans ?_⟩
      simp [hperm]
    | some reason =>
      have hperm : ¬entryPermitted c o := fun h => by rw [ho.mpr h] at hd; cases hd
      obtain ⟨denials, hloop⟩ := ih
        { p with errors := p.errors ++ [deleteErrorOf o], denials := addDenial p.denials reason }
      refine ⟨denials, hloop.trans ?_⟩
      simp [hperm]

def identifierOf (o : DeleteRequestObject) : ObjectIdentifier :=
  { key := o.key, versionId := present o.versionID, etag := present o.etag,
    lastModifiedTime := lenientTime c.dec.httpTime o.lastModifiedTime, size := o.size }

omit [Unicode] in
theorem objectIdentifier_eq {o : DeleteRequestObject}
    (htime : o.lastModifiedTime ≠ [] → (c.dec.httpTime o.lastModifiedTime).isSome = true) :
    objectIdentifier c o = .ok (identifierOf c o) := by
  unfold objectIdentifier identifierOf parsePresent lenientTime
  by_cases hempty : o.lastModifiedTime = []
  · simp [hempty, bind, Except.bind]
  · obtain ⟨t, ht⟩ := Option.isSome_iff_exists.mp (htime hempty)
    simp [hempty, ht, bind, Except.bind]

/-- The whole handler on a well-formed request: it forwards, in order, the entries
    `authorize` permits, reports the others, in order, and makes no call when nothing
    is permitted. -/
theorem deleteObjects_forwards_permitted (req : DeleteRequest)
    (hbody : readXMLBody c c.dec.xmlDelete = .ok req)
    (hlen : 1 ≤ req.objects.length ∧ req.objects.length ≤ 1000)
    (htimes : ∀ o ∈ req.objects, o.lastModifiedTime ≠ [] →
      (c.dec.httpTime o.lastModifiedTime).isSome = true) :
    let forwarded := req.objects.filter fun o => entryPermitted c o
    let refused := (req.objects.filter fun o => ¬entryPermitted c o).map deleteErrorOf
    ∃ denials, deleteObjects c =
      if forwarded = [] then
        .pure (.ok (.deleteResult { deleted := [], errors := refused } denials))
      else
        .call (deleteObjectsInput c req (forwarded.map (identifierOf c))) fun reply =>
          match reply with
          | .error e => refuse (fromSDKError e c.r.url.path)
          | .ok out =>
            .pure (.ok (.deleteResult
              { deleted := out.deleted, errors := refused ++ out.errors } denials)) := by
  intro forwarded refused
  obtain ⟨denials, hloop⟩ := deleteLoop_eq c
    (fun o ho => entryDenial_eq_none_iff c req.objects ho)
    (fun o ho => objectIdentifier_eq c (htimes o ho)) {}
  have hcount : ¬(req.objects.length = 0 ∨ 1000 < req.objects.length) := by omega
  refine ⟨denials, ?_⟩
  rw [deleteObjects, hbody]
  simp only [hcount, if_false, hloop]
  simp only [deleteForward, List.nil_append, List.length_map, List.length_eq_zero_iff]
  rfl

/-! ## Every call of the handler -/

/-- What a forwarded object was authorized for: the action of its entry and, when
    governance mode is bypassed, that too. -/
def ObjectPermitted (vr : VerifiedRequest) (b : Bucket) (bypass : Bool) (o : ObjectIdentifier) :
    Prop :=
  authorize vr b
      (if o.versionId.isSome then Action.deleteObjectVersion else Action.deleteObject).name
      (b.name ++ str "/" ++ o.key) = none ∧
    (bypass = true →
      authorize vr b Action.bypassGovernanceRetention.name (b.name ++ str "/" ++ o.key) = none)

theorem objectPermitted_of_entry {o : DeleteRequestObject} {oi : ObjectIdentifier}
    (hperm : entryPermitted c o) (hoi : objectIdentifier c o = .ok oi) :
    ObjectPermitted c.vr c.cfg (bypassGovernanceRetention c.hdr) oi := by
  obtain ⟨t, -, hoi⟩ := Fallible.bind_eq_ok.mp hoi
  cases hoi
  unfold entryPermitted entryAction entryResource at hperm
  unfold ObjectPermitted present
  by_cases hv : o.versionID = []
  · simpa [hv] using hperm
  · simpa [hv] using hperm

/-- The loop keeps this of everything it has collected, whether or not it later
    fails. -/
theorem objectPermitted_of_deleteLoop {a : DeleteAuthorizers} {objects : List DeleteRequestObject}
    (hdenial : ∀ o ∈ objects, entryDenial c a o = none ↔ entryPermitted c o)
    {p p' : DeleteProgress} (hloop : deleteLoop c a objects p = .ok p')
    (hp : ∀ oi ∈ p.objects, ObjectPermitted c.vr c.cfg (bypassGovernanceRetention c.hdr) oi) :
    ∀ oi ∈ p'.objects, ObjectPermitted c.vr c.cfg (bypassGovernanceRetention c.hdr) oi := by
  induction objects generalizing p with
  | nil =>
    cases hloop
    exact hp
  | cons o rest ih =>
    have ih := @ih fun o' h => hdenial o' (List.mem_cons_of_mem _ h)
    rw [deleteLoop] at hloop
    split at hloop
    · exact ih hloop hp
    · rename_i hd
      obtain ⟨oi, hoi, hloop⟩ := Fallible.bind_eq_ok.mp hloop
      refine ih hloop fun oi' hmem => ?_
      rcases List.mem_append.mp hmem with hold | hnew
      · exact hp oi' hold
      · obtain rfl := List.mem_singleton.mp hnew
        exact objectPermitted_of_entry c ((hdenial o List.mem_cons_self).mp hd) hoi

/-- Whatever the body, every call deletes permitted objects of the bucket only. -/
theorem deleteObjects_eachCall :
    (deleteObjects c).EachCall fun call => call.client = c.cfg.backend ∧
      ∃ i : DeleteObjectsInput, call.input = .deleteObjects i ∧ i.bucket = c.cfg.backend.bucket ∧
        i.objects ≠ [] ∧ ∀ o ∈ i.objects, ObjectPermitted c.vr c.cfg i.bypassGovernanceRetention o := by
  unfold deleteObjects
  split
  · trivial
  · rename_i req hreq
    split
    · trivial
    · split
      · trivial
      · rename_i p hloop
        have hobjects := objectPermitted_of_deleteLoop c
          (fun o ho => entryDenial_eq_none_iff c req.objects ho) hloop
          (fun oi h => absurd h List.not_mem_nil)
        unfold deleteForward
        split
        · trivial
        · rename_i hsome
          have hne : p.objects ≠ [] := fun hnil => hsome (by rw [hnil]; rfl)
          refine ⟨⟨rfl, _, rfl, rfl, hne, hobjects⟩, fun reply => ?_⟩
          cases reply <;> trivial

end Plain

/-! ### A cross-tenant delete -/

/-- `tb` lets every user of `ta` delete under `b/tmp/`, but no version. -/
def sharedBucket : Bucket where
  tenant := str "tb"
  name := str "b"
  backend := { endpoint := [], region := str "r", bucket := str "backend-b", accessKeyID := [] }
  policyText := []
  policy := some
    { policy :=
        { version := []
          statement := [
            { sid := [], effect := str "Allow", principal := some ⟨false, [str "ta/*"]⟩,
              notPrincipal := none, action := [str "s3:DeleteObject"], resource := [str "b/tmp/*"],
              condition := none }] }
      wellFormed := by
        intro st hst
        obtain rfl := List.mem_singleton.mp hst
        exact ⟨by decide, by decide, by decide⟩ }
  cors := []

def sharedDelete : DeleteRequest where
  quiet := false
  objects := [
    ⟨str "tmp/1", [], [], [], none⟩, ⟨str "log", [], [], [], none⟩, ⟨str "tmp/2", str "v1", [], [], none⟩]

def sharedDeleteRequest : Request :=
  ⟨str "POST", str "/b?delete", { path := str "/b", rawQuery := str "delete" }, str "h", [], 0, []⟩

def emptyVerifier : Sigv4.Verifier where
  region := []
  now := 0
  crypto := ⟨id, fun _ m => m⟩
  lookup := fun _ _ => .error .unknownKey
  deriveKey := fun _ _ _ _ => .error .unknownKey
  parseAmzDate := fun _ => none
  scopeDate := fun _ => []

/-- A context that decodes its body to `sharedDelete`. -/
def sharedDeleteCtx : OpCtx where
  g :=
    { store :=
        ⟨fun _ _ => .error .notFound, fun _ => .ok sharedBucket, fun _ => .ok [], fun h => nomatch h⟩
      verifier := emptyVerifier
      postCodec := ⟨fun _ => .error [], fun _ => none, fun _ => .error [], id⟩
      identity := fun _ _ => ⟨[], [], none⟩
      verifyRequest := fun _ => .error accessDenied
      clientFails := fun _ => false
      vhostSuffix := []
      authorizer := none
      interceptors := []
      storageClass := none
      kmsKey := none
      checksums := ⟨fun _ => .refused, fun _ h => nomatch h⟩ }
  dec :=
    { httpTime := fun _ => none, lockTime := fun _ => none, rfc3339 := fun _ => none
      base64 := fun _ => none, mediaType := fun _ => none, readAll := fun _ => .ok []
      xmlDelete := fun _ => some sharedDelete
      xmlComplete := fun _ => none, xmlTagging := fun _ => none, xmlRetention := fun _ => none
      xmlLegalHold := fun _ => none }
  r := sharedDeleteRequest
  cfg := sharedBucket
  vr := ⟨str "ta", str "alice", none, .zero, str "UNSIGNED-PAYLOAD", []⟩
  hdr := ⟨[], []⟩
  query := sharedDeleteRequest.url.query
  query_eq := rfl
  key := []
  copySource := []
  op := ⟨[], none, [], [], [], [], [], [], none⟩

theorem sharedDelete_forwards_one :
    let _ := asciiTables
    readXMLBody sharedDeleteCtx sharedDeleteCtx.dec.xmlDelete = .ok sharedDelete ∧
      ∃ k, deleteObjects sharedDeleteCtx = .call
        (deleteObjectsInput sharedDeleteCtx sharedDelete [⟨str "tmp/1", none, none, none, none⟩]) k := by
  let _ := asciiTables
  have hbody : readXMLBody sharedDeleteCtx sharedDeleteCtx.dec.xmlDelete = .ok sharedDelete := by rfl
  obtain ⟨denials, h⟩ := deleteObjects_forwards_permitted sharedDeleteCtx sharedDelete hbody
    (by decide) (by decide)
  have hfilter : (sharedDelete.objects.filter fun o => entryPermitted sharedDeleteCtx o) =
      [⟨str "tmp/1", [], [], [], none⟩] := by decide +kernel
  rw [hfilter] at h
  exact ⟨hbody, _, h⟩

end S3Gateway.S3gw
