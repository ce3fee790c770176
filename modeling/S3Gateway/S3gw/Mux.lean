import S3Gateway.Go.Path
import S3Gateway.S3gw.Addressing

/-! # The mux in front of the gateway

`Gateway.Handler` registers `handleRequest` for `/` on a `ServeMux`.  That pattern matches
every path, but the mux compares the request's path with its cleaned form before it hands the
request on, whatever is registered. -/

namespace S3Gateway.S3gw

open Go

inductive MuxAnswer where
  | badRequest
  | notFound
  | redirect (path rawQuery : Bytes)
  -- the request as `handleRequest` is given it
  | handle (r : Request)
deriving DecidableEq

/-- `ServeMux.ServeHTTP` with the single pattern `/`.  The pattern's own subtree has no root
    without a slash that could be redirected to it. -/
def handler (r : Request) : MuxAnswer :=
  if r.requestURI = str "*" then .badRequest
  else if r.method = str "CONNECT" then
    if hasPrefix r.url.escapedPath (str "/") then .handle r else .notFound
  else
    let path := cleanPath r.url.escapedPath
    if path ≠ r.url.escapedPath then .redirect path r.url.rawQuery else .handle r

/-- The escaped paths of an object, in either addressing style and under any escaping. -/
inductive ObjectPath (bucket key : Bytes) : Bool → Bytes → Prop
  | pathStyle {rawBucket rawKey : Bytes} : ch '/' ∉ rawBucket →
      pathUnescape rawBucket = some bucket → unescapeKey rawKey = some key →
      ObjectPath bucket key false (ch '/' :: (rawBucket ++ ch '/' :: rawKey))
  | virtualHosted {rawKey : Bytes} : unescapeKey rawKey = some key →
      ObjectPath bucket key true (ch '/' :: rawKey)

theorem ObjectPath.target [Unicode] {bucket key p vhostSuffix host : Bytes} {vhost : Bool}
    (h : ObjectPath bucket key vhost p)
    (hhost : virtualHostBucket vhostSuffix host = if vhost then some bucket else none) :
    targetOfPath vhostSuffix host p = some { bucket, key, vhost } := by
  cases h with
  | @pathStyle rawBucket rawKey hslash hbucket hkey =>
    have htrim : trimPrefix (ch '/' :: (rawBucket ++ ch '/' :: rawKey)) (str "/") =
        rawBucket ++ ch '/' :: rawKey := by
      rw [trimPrefix]
      exact congrArg (Option.getD · _) (cutPrefix_append (str "/") _)
    simp [targetOfPath, hhost, splitPath, htrim, cut_append hslash, hbucket, hkey]
  | @virtualHosted rawKey hkey =>
    have htrim : trimPrefix (ch '/' :: rawKey) (str "/") = rawKey := by
      rw [trimPrefix]
      exact congrArg (Option.getD · _) (cutPrefix_append (str "/") _)
    simp [targetOfPath, hhost, htrim, hkey]

theorem ObjectPath.rooted {bucket key p : Bytes} {vhost : Bool} (h : ObjectPath bucket key vhost p) :
    hasPrefix p (str "/") = true := by
  cases h with
  | pathStyle => exact hasPrefix_append (str "/") _
  | virtualHosted => exact hasPrefix_append (str "/") _

theorem ObjectPath.requestURI_ne {bucket key : Bytes} {vhost : Bool}
    {parseAuthority : Bytes → Option Bytes} {r : Request}
    (hr : parseRequestURI parseAuthority r.requestURI = some r.url)
    (h : ObjectPath bucket key vhost r.url.escapedPath) : r.requestURI ≠ str "*" := by
  intro hstar
  have hurl : some { path := str "*" } = some r.url := by
    rw [← hr, hstar]
    rfl
  have hrooted := h.rooted
  rw [← Option.some.inj hurl] at hrooted
  exact absurd hrooted (by decide)

/-- A request for an object reaches `handleRequest` as it came exactly when the mux does not
    clean paths for its method or finds nothing to clean. -/
theorem handler_passes_iff {parseAuthority : Bytes → Option Bytes} {r : Request}
    (hr : parseRequestURI parseAuthority r.requestURI = some r.url) {bucket key : Bytes}
    {vhost : Bool} (hpath : ObjectPath bucket key vhost r.url.escapedPath) :
    handler r = .handle r ↔ r.method = str "CONNECT" ∨ PlainPath r.url.escapedPath := by
  rw [handler, if_neg (hpath.requestURI_ne hr)]
  by_cases hconnect : r.method = str "CONNECT"
  · simp [hconnect, hpath.rooted]
  · rw [if_neg hconnect, ← cleanPath_eq_self_iff]
    by_cases hclean : cleanPath r.url.escapedPath = r.url.escapedPath
    · simp [hclean]
    · simp [hclean, hconnect]

/-- A request as a client without a virtual host sends it. -/
def getRequest (p : Bytes) : Request := ⟨str "GET", p, { path := p }, str "s3.example", [], 0, []⟩

theorem getRequest_objectPath (rawBucket rawKey : Bytes) {bucket key : Bytes} (hslash : ch '/' ∉ rawBucket)
    (hbucket : pathUnescape rawBucket = some bucket) (hkey : unescapeKey rawKey = some key)
    {p : Bytes} (hp : (getRequest p).url.escapedPath = ch '/' :: (rawBucket ++ ch '/' :: rawKey)) :
    ObjectPath bucket key false (getRequest p).url.escapedPath := by
  rw [hp]
  exact .pathStyle hslash hbucket hkey

/-- The key `a//b` is answered by a redirect to the key `a/b`. -/
theorem emptySegment_redirected :
    ObjectPath (str "bucket") (str "a//b") false (getRequest (str "/bucket/a//b")).url.escapedPath ∧
      parseRequestURI (fun _ => none) (getRequest (str "/bucket/a//b")).requestURI =
        some (getRequest (str "/bucket/a//b")).url ∧
      handler (getRequest (str "/bucket/a//b")) = .redirect (str "/bucket/a/b") [] := by
  refine ⟨?_, by decide +kernel, by decide +kernel⟩
  apply getRequest_objectPath (str "bucket") (str "a//b") <;> decide +kernel

theorem trailingSlash_passes :
    let r := getRequest (str "/bucket/a/b/")
    ObjectPath (str "bucket") (str "a/b/") false r.url.escapedPath ∧ PlainPath r.url.escapedPath ∧
      handler r = .handle r := by
  intro r
  have hparsed : parseRequestURI (fun _ => none) r.requestURI = some r.url := by decide +kernel
  have hpath : ObjectPath (str "bucket") (str "a/b/") false r.url.escapedPath := by
    apply getRequest_objectPath (str "bucket") (str "a/b/") <;> decide +kernel
  have hpasses : handler r = .handle r := by decide +kernel
  have hplain := ((handler_passes_iff hparsed hpath).mp hpasses).resolve_left (by decide)
  exact ⟨hpath, hplain, hpasses⟩

end S3Gateway.S3gw
