import S3Gateway.S3gw.Addressing
import S3Gateway.S3gw.Context
import S3Gateway.Library.Fallible

/-! # Copy sources

`resolveCopySource`: the front object a copy reads, looked up within the requester's
own tenant. -/

namespace S3Gateway.S3gw

open Go S3err S3op

def versioned (action : Action) (versionAction : Option Action) (version : Bool) : Action :=
  if version then versionAction.getD action else action

/-- What an `x-amz-copy-source` value names; `versionID` is its query, as sent. -/
structure CopySource where
  bucket : Bytes
  key : Bytes
  versionID : Bytes
deriving DecidableEq

def CopySource.version (s : CopySource) : Bool := (parseQuery s.versionID).get (str "versionId") != []

def parseCopySource (value : Bytes) : Except S3Error CopySource :=
  let invalid := (invalidArgument (str "Invalid copy source")).withCause .other
  let (rawPath, versionID, _) := cut (ch '?') (trimPrefix value (str "/"))
  match cut (ch '/') rawPath with
  | (rawBucket, rawKey, ok) =>
    if !ok || rawKey == [] then
      .error (invalidArgument
        (str "Copy Source must mention the source bucket and key: sourcebucket/sourcekey"))
    else do
      let bucket ← (pathUnescape rawBucket).elim (.error invalid) .ok
      let key ← (unescapeKey rawKey).elim (.error invalid) .ok
      if parseQueryFails versionID then .error invalid else .ok { bucket, key, versionID }

def backendCopySource (bucket : Bytes) (s : CopySource) : Bytes :=
  let path := (URL.escapedPath { path := str "/" ++ bucket ++ str "/" ++ s.key }).drop 1
  if s.versionID ≠ [] then path ++ str "?" ++ s.versionID else path

theorem escapedPath_object (bucket key : Bytes) :
    URL.escapedPath { path := str "/" ++ bucket ++ str "/" ++ key } =
      ch '/' :: (escape .path bucket ++ ch '/' :: escape .path key) := by
  have hstar : str "/" ++ bucket ++ str "/" ++ key ≠ str "*" := by
    intro h
    cases h
  have hslash : escape .path (str "/") = [ch '/'] := by decide
  simp only [URL.escapedPath, ne_eq, not_true, false_and, if_false, if_neg hstar]
  simp only [escape, List.flatMap_append] at hslash ⊢
  rw [hslash]
  simp

theorem backendCopySource_ne_nil (bucket : Bytes) (s : CopySource) :
    backendCopySource bucket s ≠ [] := by
  unfold backendCopySource
  rw [escapedPath_object]
  split <;> simp

section

variable [Unicode] (c : OpCtx) (copyAction : Action) (copyVersionAction : Option Action)

/-- `g.resolveCopySource(c, rt)`, with the copy actions of the route: the backend's
    copy source and the action its read was authorized for. -/
def resolveCopySource : Except S3Error (Bytes × Action) := do
  let s ← parseCopySource (c.signed hdrCopySource)
  let action := versioned copyAction copyVersionAction s.version
  match c.g.store.getBucket c.vr.tenant s.bucket with
  | .error .notFound =>
    .error (accessDenied.withCause (.denied
      (copySourceReason c.vr.principal action.name (s.bucket ++ str "/" ++ s.key) .notFound)))
  | .error e => .error (internalError (.store e) (str "bucket lookup failed"))
  | .ok src => do
    failWith (authorize c.vr src action.name (src.name ++ str "/" ++ s.key))
    let sb := src.backend
    let db := c.cfg.backend
    if sb.endpoint ≠ db.endpoint ∨ sb.region ≠ db.region ∨ sb.accessKeyID ≠ db.accessKeyID then
      .error (notImplemented (str "copying between different backends"))
    else .ok (backendCopySource sb.bucket s, action)

/-- The source behind a resolved copy: a bucket of the requester's tenant, on whose
    object the read was authorized. -/
structure ReadsOwn (g : Gateway) (vr : VerifiedRequest) (value : Bytes) (copySource : Bytes)
    (s : CopySource) (src : Bucket) (action : Action) : Prop where
  parsed : parseCopySource value = .ok s
  found : g.store.getBucket vr.tenant s.bucket = .ok src
  authorized : authorize vr src action.name (src.name ++ str "/" ++ s.key) = none
  sent : copySource = backendCopySource src.backend.bucket s

theorem resolveCopySource_eq_ok {copySource : Bytes} {action : Action}
    (h : resolveCopySource c copyAction copyVersionAction = .ok (copySource, action)) :
    ∃ s src, ReadsOwn c.g c.vr (c.signed hdrCopySource) copySource s src action ∧
      action = versioned copyAction copyVersionAction s.version := by
  obtain ⟨s, hs, h⟩ := Fallible.bind_eq_ok.mp h
  split at h
  · cases h
  · cases h
  · rename_i src hsrc
    obtain ⟨_, hauth, h⟩ := Fallible.bind_eq_ok.mp h
    dsimp only at h
    split at h
    · cases h
    · injection h with h
      injection h with hsent haction
      subst haction
      exact ⟨s, src, ⟨hs, hsrc, failWith_eq_ok.mp hauth, hsent.symm⟩, rfl⟩

end

end S3Gateway.S3gw
