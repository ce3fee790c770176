import S3Gateway.S3gw.CopySource
import S3Gateway.S3gw.DeleteObjects
import S3Gateway.S3gw.Routes

/-! # What a copy reads

The backend splits the copy source it is sent at the first question mark, decodes the path
before it and reads the query behind it.  The path is rebuilt from the decoded key, and the
query is the client's own text, of which only the first `versionId` was looked at. -/

namespace S3Gateway.S3gw

open Go S3err S3op

/-! ## The object -/

theorem cut_backendCopySource (bucket : Bytes) (s : CopySource) :
    ∃ found, cut (ch '?') (backendCopySource bucket s) =
      (escape .path (bucket ++ str "/" ++ s.key), s.versionID, found) := by
  have hpath : (URL.escapedPath { path := str "/" ++ bucket ++ str "/" ++ s.key }).drop 1 =
      escape .path (bucket ++ str "/" ++ s.key) := by
    rw [escapedPath_object]
    have hslash : escape .path (str "/") = [ch '/'] := by decide
    simp only [escape, List.flatMap_append] at hslash ⊢
    rw [hslash]
    simp
  simp only [backendCopySource, hpath]
  split
  · rw [List.append_assoc]
    exact ⟨true, cut_append (question_not_mem_escape _)⟩
  · rename_i hnone
    rw [not_ne_iff.mp hnone]
    exact ⟨false, cut_of_not_mem (question_not_mem_escape _)⟩

theorem pathUnescape_backendCopySource (bucket : Bytes) (s : CopySource) :
    pathUnescape (cut (ch '?') (backendCopySource bucket s)).1 =
      some (bucket ++ str "/" ++ s.key) := by
  obtain ⟨found, hcut⟩ := cut_backendCopySource bucket s
  rw [hcut, pathUnescape, unescape_pathSegment, unescape_escape]

section

variable [Unicode] {c : OpCtx} {copyAction : Action} {copyVersionAction : Option Action}
  {copySource : Bytes} {action : Action}

/-- The path the backend decodes is the object on which the read was authorized. -/
theorem copySource_reads_authorized
    (h : resolveCopySource c copyAction copyVersionAction = .ok (copySource, action)) :
    ∃ s src, parseCopySource (c.signed hdrCopySource) = .ok s ∧
      c.g.store.getBucket c.vr.tenant s.bucket = .ok src ∧
      authorize c.vr src action.name (src.name ++ str "/" ++ s.key) = none ∧
      pathUnescape (cut (ch '?') copySource).1 = some (src.backend.bucket ++ str "/" ++ s.key) := by
  obtain ⟨s, src, hreads, -⟩ := resolveCopySource_eq_ok c copyAction copyVersionAction h
  refine ⟨s, src, hreads.parsed, hreads.found, hreads.authorized, ?_⟩
  rw [hreads.sent]
  exact pathUnescape_backendCopySource src.backend.bucket s

end

/-- A request with a copy source, by a user whose tenant owns every bucket it names. -/
def copyCtx (value : Bytes) : OpCtx :=
  { sharedDeleteCtx with
    g :=
      { sharedDeleteCtx.g with
        store :=
          ⟨fun tenant _ => .ok { sharedBucket with tenant, policy := none },
            fun _ => .error .notFound, fun _ => .ok [], by intro _ _ _ h; cases h; rfl⟩ }
    hdr := ⟨[(str "X-Amz-Copy-Source", value)], [hdrCopySource]⟩ }

/-- A key with an encoded slash, an encoded question mark and an empty segment. -/
def encodedSource : Bytes := str "/src/a%2F..%3F//%E3%81%82?versionId=1"

def encodedSourceSent : Bytes := str "backend-b/a/..%3F//%E3%81%82?versionId=1"

theorem encodedSource_reads_authorized :
    let _ := asciiTables
    resolveCopySource (copyCtx encodedSource) .getObject (some .getObjectVersion) =
        .ok (encodedSourceSent, .getObjectVersion) ∧
      ∃ s src, parseCopySource ((copyCtx encodedSource).signed hdrCopySource) = .ok s ∧
        (copyCtx encodedSource).g.store.getBucket (copyCtx encodedSource).vr.tenant s.bucket =
          .ok src ∧
        authorize (copyCtx encodedSource).vr src Action.getObjectVersion.name
          (src.name ++ str "/" ++ s.key) = none ∧
        pathUnescape (cut (ch '?') encodedSourceSent).1 =
          some (src.backend.bucket ++ str "/" ++ s.key) := by
  intro _
  have h : resolveCopySource (copyCtx encodedSource) .getObject (some .getObjectVersion) =
      .ok (encodedSourceSent, .getObjectVersion) := by decide +kernel
  exact ⟨h, copySource_reads_authorized h⟩

/-! ## The version -/

/-- The `versionId` values of a query. -/
def versionsOf (query : Bytes) : List Bytes := (parseQuery query).valuesOf qpVersionID

/-- The copy source the backend is sent has a `versionId` that is not empty. -/
def NamesVersion (copySource : Bytes) : Prop :=
  ∃ v ∈ versionsOf (cut (ch '?') copySource).2.1, v ≠ []

/-- If any `versionId` of the header's query is not empty, the first one is not. -/
def FirstVersionDecides (value : Bytes) : Prop :=
  let versions := versionsOf (cut (ch '?') (trimPrefix value (str "/"))).2.1
  (∃ v ∈ versions, v ≠ []) → versions.headD [] ≠ []

theorem parseCopySource_versionID {value : Bytes} {s : CopySource}
    (h : parseCopySource value = .ok s) :
    s.versionID = (cut (ch '?') (trimPrefix value (str "/"))).2.1 := by
  unfold parseCopySource at h
  dsimp only at h
  split at h
  · cases h
  · obtain ⟨bucket, -, h⟩ := Fallible.bind_eq_ok.mp h
    obtain ⟨key, -, h⟩ := Fallible.bind_eq_ok.mp h
    split at h
    · cases h
    · obtain rfl := Except.ok.inj h
      rfl

/-- Both copies of the tables read their source as an object or as a version of one. -/
theorem copyActions_of_route : ∀ p ∈ objectRoutes, ∀ rt ∈ p.2, ∀ a, rt.copyAction = some a →
    a = .getObject ∧ rt.copyVersionAction = some .getObjectVersion := by
  have h : ∀ p ∈ objectRoutes, ∀ rt ∈ p.2, ∀ a ∈ rt.copyAction,
      a = .getObject ∧ rt.copyVersionAction = some .getObjectVersion := by decide +kernel
  exact h

theorem versioned_getObject (version : Bool) :
    versioned .getObject (some .getObjectVersion) version = .getObjectVersion ↔ version = true := by
  cases version <;> decide

/-- A copy of a version is authorized as one exactly when no empty `versionId` precedes the
    one that names it. -/
theorem copySource_version_iff [Unicode] {c : OpCtx} {methodRoutes : Bytes × List Route} {rt : Route}
    {copyAction action : Action} {copySource : Bytes} (hmethod : methodRoutes ∈ objectRoutes)
    (hrt : rt ∈ methodRoutes.2) (hcopy : rt.copyAction = some copyAction)
    (h : resolveCopySource c copyAction rt.copyVersionAction = .ok (copySource, action)) :
    (NamesVersion copySource → action = .getObjectVersion) ↔
      FirstVersionDecides (c.signed hdrCopySource) := by
  obtain ⟨s, src, hreads, haction⟩ := resolveCopySource_eq_ok c copyAction rt.copyVersionAction h
  obtain ⟨rfl, hversion⟩ := copyActions_of_route _ hmethod _ hrt _ hcopy
  obtain ⟨found, hcut⟩ := cut_backendCopySource src.backend.bucket s
  have hdecides : action = .getObjectVersion ↔ (versionsOf s.versionID).headD [] ≠ [] := by
    rw [haction, hversion, versioned_getObject]
    exact bne_iff_ne
  rw [hdecides, NamesVersion, hreads.sent, hcut, FirstVersionDecides,
    ← parseCopySource_versionID hreads.parsed]

/-- A copy source whose first `versionId` is empty. -/
def shadowedVersion : Bytes := str "src/k?versionId=&versionId=v2"

def shadowedVersionSent : Bytes := str "backend-b/k?versionId=&versionId=v2"

/-- The version is forwarded and the read was authorized as one of the current object. -/
theorem shadowedVersion_unauthorized :
    let _ := asciiTables
    ∃ methodRoutes ∈ objectRoutes, ∃ rt ∈ methodRoutes.2, rt.copyAction = some .getObject ∧
      resolveCopySource (copyCtx shadowedVersion) .getObject rt.copyVersionAction =
        .ok (shadowedVersionSent, .getObject) ∧
      NamesVersion shadowedVersionSent := by
  intro _
  obtain ⟨methodRoutes, hmethod, rt, hrt, hcopy⟩ :
      ∃ p ∈ objectRoutes, ∃ rt ∈ p.2, rt.copyAction = some .getObject := by decide +kernel
  refine ⟨methodRoutes, hmethod, rt, hrt, hcopy, ?_, str "v2", by decide +kernel, by decide⟩
  rw [(copyActions_of_route _ hmethod _ hrt _ hcopy).2]
  decide +kernel

theorem encodedSource_version_authorized :
    let _ := asciiTables
    ∃ methodRoutes ∈ objectRoutes, ∃ rt ∈ methodRoutes.2, rt.copyAction = some .getObject ∧
      resolveCopySource (copyCtx encodedSource) .getObject rt.copyVersionAction =
        .ok (encodedSourceSent, .getObjectVersion) ∧
      NamesVersion encodedSourceSent ∧ FirstVersionDecides ((copyCtx encodedSource).signed hdrCopySource) := by
  intro _
  obtain ⟨methodRoutes, hmethod, rt, hrt, hcopy⟩ :
      ∃ p ∈ objectRoutes, ∃ rt ∈ p.2, rt.copyAction = some .getObject := by decide +kernel
  have h : resolveCopySource (copyCtx encodedSource) .getObject rt.copyVersionAction =
      .ok (encodedSourceSent, .getObjectVersion) := by
    rw [(copyActions_of_route _ hmethod _ hrt _ hcopy).2]
    decide +kernel
  have hnames : NamesVersion encodedSourceSent := by
    refine ⟨str "1", ?_, ?_⟩
    · decide +kernel
    · decide
  exact ⟨methodRoutes, hmethod, rt, hrt, hcopy, h, hnames, (copySource_version_iff hmethod hrt hcopy h).mp fun _ => rfl⟩

end S3Gateway.S3gw
