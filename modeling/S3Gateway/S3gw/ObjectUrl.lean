import Mathlib.Data.List.TakeWhile
import S3Gateway.S3gw.SignedPath
import S3Gateway.S3rp.Config

/-! # Object URLs

`objectURL` of `addressing.go` writes the URL of an object, `requestTarget` reads one.  The writer
escapes the whole path at once, the reader cuts it first and unescapes each segment. -/

namespace S3Gateway.S3gw

open Go

/-- `objectURL(r, t, key)`; `tls` stands for `r.TLS != nil`. -/
def objectURL (tls : Bool) (r : Request) (t : Target) (key : Bytes) : Bytes :=
  let scheme := if tls then str "https" else str "http"
  let path := str "/" ++ key
  let path := if t.vhost then path else str "/" ++ t.bucket ++ path
  scheme ++ str "://" ++ r.host ++ URL.escapedPath { path }

/-! ## Requests for a URL -/

def endsAuthority (b : UInt8) : Bool := b == ch '/' || b == ch '?' || b == ch '#'

/-- The host and the request line of an absolute URL, as a client sends them: the fragment stays
    behind. -/
def splitURL (rawURL : Bytes) : Option (Bytes × Bytes) :=
  match cut (ch ':') rawURL with
  | (_, rest, true) =>
    (cutPrefix rest (str "//")).map fun rest =>
      (rest.takeWhile (!endsAuthority ·), (rest.dropWhile (!endsAuthority ·)).takeWhile (· ≠ ch '#'))
  | (_, _, false) => none

/-- The server has read this request off a connection of a client that was given the URL. -/
structure Request.IsFor (parseAuthority : Bytes → Option Bytes) (rawURL : Bytes) (r : Request) : Prop where
  sent : splitURL rawURL = some (r.host, r.requestURI)
  parsed : parseRequestURI parseAuthority r.requestURI = some r.url

/-! ## What escaping leaves alone -/

theorem escape_append (mode : Encoding) (s t : Bytes) : escape mode (s ++ t) = escape mode s ++ escape mode t :=
  List.flatMap_append

/-- The bytes that end a path or its segments, or that no URL may hold, are written as escapes. -/
theorem mem_escape_path {b : UInt8} {s : Bytes} (h : b ∈ escape .path s) :
    isCTL b = false ∧ b ≠ ch '?' ∧ b ≠ ch '#' ∧ (b = ch '/' → ch '/' ∈ s) := by
  have hbyte : ∀ c : UInt8, ((escapeByte .path c).all fun b =>
      !isCTL b && b != ch '?' && b != ch '#' && (b != ch '/' || c == ch '/')) = true := forall_byte (by decide +kernel)
  obtain ⟨c, hc, hb⟩ := List.mem_flatMap.mp h
  have hall := List.all_eq_true.mp (hbyte c) b hb
  simp only [Bool.and_eq_true, Bool.or_eq_true, Bool.not_eq_true', bne_iff_ne, beq_iff_eq] at hall
  obtain ⟨⟨⟨hctl, hquery⟩, hfragment⟩, hslash⟩ := hall
  exact ⟨hctl, hquery, hfragment, fun heq => (hslash.resolve_left fun hne => hne heq) ▸ hc⟩

/-- Segments are escaped one by one, since a slash is not escaped and nothing else becomes one. -/
theorem split_escape (s : Bytes) : split (ch '/') (escape .path s) = (split (ch '/') s).map (escape .path) := by
  have hjoined : escape .path s = [ch '/'].intercalate ((split (ch '/') s).map (escape .path)) := by
    have hs : [ch '/'].intercalate (split (ch '/') s) = s := List.intercalate_splitOn (ch '/')
    conv_lhs => rw [← hs]
    exact Fields.flatMap_intercalate _ _ _
  rw [hjoined, split, List.splitOn_intercalate]
  · intro segment hsegment hslash
    obtain ⟨raw, hraw, rfl⟩ := List.mem_map.mp hsegment
    exact Fields.not_mem_of_mem_splitOn hraw ((mem_escape_path hslash).2.2.2 rfl)
  · simp [split]

theorem pathUnescape_escape (s : Bytes) : pathUnescape (escape .path s) = some s := by
  rw [pathUnescape, unescape_pathSegment, unescape_escape]

theorem unescapeKey_escape (key : Bytes) : unescapeKey (escape .path key) = some key := by
  have hsegments : ((split (ch '/') key).map (escape .path)).mapM pathUnescape = some (split (ch '/') key) := by
    induction split (ch '/') key with
    | nil => rfl
    | cons segment rest ih =>
      rw [List.map_cons, List.mapM_cons, pathUnescape_escape, ih]
      rfl
  rw [unescapeKey, split_escape, hsegments, Option.map_some]
  congr 1
  exact List.intercalate_splitOn (ch '/')

/-! ## The URL of an object -/

/-- The path `objectURL` writes, before escaping. -/
def objectPath (t : Target) (key : Bytes) : Bytes :=
  if t.vhost then ch '/' :: key else ch '/' :: (t.bucket ++ ch '/' :: key)

theorem escape_slash_cons (s : Bytes) : escape .path (ch '/' :: s) = ch '/' :: escape .path s := rfl

theorem objectPath_cons (t : Target) (key : Bytes) : ∃ rest, objectPath t key = ch '/' :: rest := by
  unfold objectPath
  split
  · exact ⟨_, rfl⟩
  · exact ⟨_, rfl⟩

theorem escapedPath_slash {path rest : Bytes} (h : path = ch '/' :: rest) :
    URL.escapedPath { path } = escape .path path := by
  have hstar : path ≠ str "*" := fun hpath => absurd (List.cons.inj (h.symm.trans hpath)).1 (by decide)
  rw [URL.escapedPath, if_neg (fun h => h.1 rfl), if_neg hstar]

theorem objectURL_eq (tls : Bool) (r : Request) (t : Target) (key : Bytes) :
    objectURL tls r t key =
      (if tls then str "https" else str "http") ++ ch ':' :: (str "//" ++ (r.host ++ escape .path (objectPath t key))) := by
  have hpath : (if t.vhost then str "/" ++ key else str "/" ++ t.bucket ++ (str "/" ++ key)) = objectPath t key := by
    unfold objectPath
    split
    · rfl
    · rw [List.append_assoc]
      rfl
  have hescaped : URL.escapedPath { path := objectPath t key } = escape .path (objectPath t key) := by
    obtain ⟨rest, hrest⟩ := objectPath_cons t key
    exact escapedPath_slash hrest
  unfold objectURL
  simp only [hpath, hescaped]
  rw [List.append_assoc, List.append_assoc]
  rfl

/-- A client that was given the URL sends the host it was built from and the escaped path. -/
theorem splitURL_objectURL (tls : Bool) {r : Request} (hhost : r.host.any endsAuthority = false) (t : Target)
    (key : Bytes) : splitURL (objectURL tls r t key) = some (r.host, escape .path (objectPath t key)) := by
  have hscheme : ch ':' ∉ (if tls then str "https" else str "http") := by
    cases tls <;> decide
  have hkept : ∀ b ∈ r.host, (!endsAuthority b) = true := by
    simpa using hhost
  obtain ⟨rest, hrest⟩ := objectPath_cons t key
  rw [objectURL_eq, splitURL, cut_append hscheme]
  simp only [cutPrefix_append, Option.map_some]
  rw [List.takeWhile_append_of_pos hkept, List.dropWhile_append_of_pos hkept, hrest, escape_slash_cons,
    List.takeWhile_cons_of_neg (by decide), List.dropWhile_cons_of_neg (by decide), List.append_nil,
    List.takeWhile_eq_self_iff.mpr]
  intro b hb
  rw [← escape_slash_cons] at hb
  simpa using (mem_escape_path hb).2.2.1

theorem parseRequestURI_escape (parseAuthority : Bytes → Option Bytes) (s : Bytes) :
    parseRequestURI parseAuthority (escape .path (ch '/' :: s)) = some { path := ch '/' :: s } := by
  have hquery : ch '?' ∉ escape .path (ch '/' :: s) := question_not_mem_escape _
  have hstar : escape .path (ch '/' :: s) ≠ str "*" := by
    rw [escape_slash_cons]
    exact fun h => absurd (List.cons.inj h).1 (by decide)
  have hctl : (escape .path (ch '/' :: s)).any isCTL = false := by
    rw [List.any_eq_false]
    intro b hb
    simp [(mem_escape_path hb).1]
  have hscheme : getScheme (escape .path (ch '/' :: s)) = some ([], escape .path (ch '/' :: s)) := by
    rw [escape_slash_cons, getScheme, getSchemeLoop, if_neg (by decide), if_neg (by decide), if_neg (by decide)]
  have hsplit : splitQuery (escape .path (ch '/' :: s)) = (escape .path (ch '/' :: s), []) := by
    have hcount : (escape .path (ch '/' :: s)).count (ch '?') = 0 := List.count_eq_zero.mpr hquery
    simp [splitQuery, hcount, cut_of_not_mem hquery]
  refine (parseRequestURI_eq_some hstar).mpr ⟨hctl, by simp [escape_slash_cons], [], _, hscheme, ?_⟩
  have hslash : hasPrefix (escape .path (ch '/' :: s)) (str "/") = true := by
    rw [escape_slash_cons]
    exact hasPrefix_append (str "/") _
  simp [hsplit, parseHierarchy, hslash, lowerScheme, URL.setPath, unescape_escape]

theorem slash_not_mem_of_isBucketName {bucket : Bytes} (h : S3rp.isBucketName bucket = true) : ch '/' ∉ bucket := by
  intro hmem
  simp only [S3rp.isBucketName, Bool.and_eq_true, List.all_eq_true] at h
  exact absurd (h.1.1.2 _ hmem) (by decide)

/-- Reading the path that was written gives the key back, and in path style the bucket. -/
theorem splitPath_escape {bucket : Bytes} (h : ch '/' ∉ bucket) (key : Bytes) :
    splitPath (escape .path (ch '/' :: (bucket ++ ch '/' :: key))) = some (bucket, key) := by
  have hbucket : ch '/' ∉ escape .path bucket := fun hmem => h ((mem_escape_path hmem).2.2.2 rfl)
  rw [splitPath, escape_slash_cons, trimPrefix_slash, escape_append, escape_slash_cons, cut_append hbucket]
  simp [pathUnescape_escape, unescapeKey_escape]

section RoundTrip

variable [Unicode] (parseAuthority : Bytes → Option Bytes) (vhostSuffix : Bytes)

/-- The host decides the style, and the style says where the bucket is written. -/
theorem targetOfPath_objectPath {host : Bytes} {t : Target} (hbucket : ch '/' ∉ t.bucket)
    (hstyle : virtualHostBucket vhostSuffix host = if t.vhost then some t.bucket else none) (key : Bytes) :
    targetOfPath vhostSuffix host (escape .path (objectPath t key)) = some { t with key } := by
  obtain ⟨bucket, key₀, vhost⟩ := t
  unfold targetOfPath objectPath
  rw [hstyle]
  cases vhost with
  | true =>
    simp only [if_true]
    rw [escape_slash_cons, trimPrefix_slash, unescapeKey_escape]
    rfl
  | false =>
    simp only [Bool.false_eq_true, if_false]
    rw [splitPath_escape hbucket]
    rfl

theorem virtualHostBucket_of_requestTarget {r : Request} {t : Target} (h : requestTarget vhostSuffix r = some t) :
    virtualHostBucket vhostSuffix r.host = if t.vhost then some t.bucket else none := by
  unfold requestTarget targetOfPath at h
  cases hhost : virtualHostBucket vhostSuffix r.host with
  | some bucket =>
    rw [hhost] at h
    obtain ⟨key, -, rfl⟩ := Option.map_eq_some_iff.mp h
    rfl
  | none =>
    rw [hhost] at h
    obtain ⟨_, -, rfl⟩ := Option.map_eq_some_iff.mp h
    rfl

/-- There is a request for the URL of an object, and each of them points at that object. -/
theorem isFor_objectURL (tls : Bool) {r : Request} (hhost : r.host.any endsAuthority = false) {t : Target}
    (hbucket : S3rp.isBucketName t.bucket = true)
    (hstyle : virtualHostBucket vhostSuffix r.host = if t.vhost then some t.bucket else none) (key : Bytes) :
    (∃ r', Request.IsFor parseAuthority (objectURL tls r t key) r') ∧
      ∀ r', Request.IsFor parseAuthority (objectURL tls r t key) r' → requestTarget vhostSuffix r' = some { t with key } := by
  obtain ⟨rest, hrest⟩ := objectPath_cons t key
  have hsent := splitURL_objectURL tls hhost t key
  have hparsed : parseRequestURI parseAuthority (escape .path (objectPath t key)) = some { path := objectPath t key } := by
    rw [hrest]
    exact parseRequestURI_escape parseAuthority rest
  constructor
  · exact ⟨{ r with requestURI := escape .path (objectPath t key), url := { path := objectPath t key } }, hsent, hparsed⟩
  · intro r' hr'
    obtain ⟨hhost', hline⟩ := Prod.mk.inj (Option.some.inj (hr'.sent.symm.trans hsent))
    have hurl : r'.url = { path := objectPath t key } := by
      have hparsed' := hr'.parsed
      rw [hline, hparsed] at hparsed'
      exact (Option.some.inj hparsed').symm
    have hescaped : URL.escapedPath { path := objectPath t key } = escape .path (objectPath t key) :=
      escapedPath_slash hrest
    rw [requestTarget, hhost', hurl, hescaped]
    exact targetOfPath_objectPath vhostSuffix (slash_not_mem_of_isBucketName hbucket) hstyle key

/-- The URL of an object under the host and in the style of a request points at this object again;
    in the two styles the URLs of one object point at the same. -/
theorem objectURL_round_trip (tls : Bool) (r : Request) (hhost : r.host.any endsAuthority = false) (key : Bytes) :
    (∀ t, requestTarget vhostSuffix r = some t → S3rp.isBucketName t.bucket = true →
      (∃ r', Request.IsFor parseAuthority (objectURL tls r t key) r') ∧
        ∀ r', Request.IsFor parseAuthority (objectURL tls r t key) r' →
          requestTarget vhostSuffix r' = some { bucket := t.bucket, key, vhost := t.vhost }) ∧
    ∀ (bucket : Bytes) (tls' : Bool) (v : Request), v.host.any endsAuthority = false →
      S3rp.isBucketName bucket = true → virtualHostBucket vhostSuffix r.host = none →
      virtualHostBucket vhostSuffix v.host = some bucket →
      ∀ r' v', Request.IsFor parseAuthority (objectURL tls r { bucket, key, vhost := false } key) r' →
        Request.IsFor parseAuthority (objectURL tls' v { bucket, key, vhost := true } key) v' →
        (requestTarget vhostSuffix r').map (fun t => (t.bucket, t.key)) = some (bucket, key) ∧
          (requestTarget vhostSuffix v').map (fun t => (t.bucket, t.key)) = some (bucket, key) := by
  constructor
  · intro t htarget hbucket
    exact isFor_objectURL parseAuthority vhostSuffix tls hhost hbucket
      (virtualHostBucket_of_requestTarget vhostSuffix htarget) key
  · intro bucket tls' v hvhost hbucket hpath hlabel r' v' hr' hv'
    have hpathStyle := (isFor_objectURL parseAuthority vhostSuffix tls hhost
      (t := { bucket, key, vhost := false }) hbucket hpath key).2 r' hr'
    have hvirtual := (isFor_objectURL parseAuthority vhostSuffix tls' hvhost
      (t := { bucket, key, vhost := true }) hbucket hlabel key).2 v' hv'
    rw [hpathStyle, hvirtual]
    exact ⟨rfl, rfl⟩

end RoundTrip

/-- A request for an object whose key starts with a slash and holds bytes that mean something in a URL. -/
def awkwardRequest : Request :=
  sentRequest (str "//a%2F?") { path := str "//a/", rawPath := str "//a%2F" }

theorem awkwardKey_round_trip :
    let _ := asciiTables
    let r := { awkwardRequest with host := str "My-Bucket.s3.example:8080" }
    let suffix := virtualHostSuffix (str "S3.example:8080")
    let t : Target := { bucket := str "my-bucket", key := str "/a/", vhost := true }
    let key := str "/a//%2F?#\n"
    requestTarget suffix r = some t ∧
      objectURL true r t key = str "https://My-Bucket.s3.example:8080//a//%252F%3F%23%0A" ∧
      ∃ r', Request.IsFor some (objectURL true r t key) r' ∧
        requestTarget suffix r' = some { bucket := str "my-bucket", key, vhost := true } := by
  intro _ r suffix t key
  have htarget : requestTarget suffix r = some t := by decide +kernel
  obtain ⟨⟨r', hr'⟩, hall⟩ := (objectURL_round_trip some suffix true r (by decide +kernel) key).1 t htarget (by decide +kernel)
  exact ⟨htarget, by decide +kernel, r', hr', hall r' hr'⟩

end S3Gateway.S3gw
