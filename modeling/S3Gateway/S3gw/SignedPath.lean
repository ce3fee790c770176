import S3Gateway.S3gw.Mux
import S3Gateway.Sigv4.Canonical

/-! # The signed path and the executed one

The verifier reads the path of a request out of its request line with
`canonicalURI`, the handlers read it out of `r.URL` with `requestTarget`.  They part
on a request line in opaque form, `scheme:rest`: there the verifier looks for the path
inside the opaque part, and `EscapedPath` is empty.  It is the mux that keeps such a request
away: an empty path is not clean. -/

namespace S3Gateway.S3gw

open Go Sigv4

/-! ## Paths that resolve to nothing -/

theorem pathUnescape_eq_nil {s : Bytes} : pathUnescape s = some [] ↔ s = [] := by
  constructor
  · exact unescape_eq_nil
  · rintro rfl
    rfl

theorem unescapeKey_eq_nil {s : Bytes} : unescapeKey s = some [] ↔ s = [] := by
  constructor
  · intro h
    obtain ⟨parts, hparts, hjoin⟩ := Option.map_eq_some_iff.mp h
    have hs : join (split (ch '/') s) [ch '/'] = s := List.intercalate_splitOn (ch '/')
    cases hsplit : split (ch '/') s with
    | nil =>
      rw [hsplit] at hs
      exact hs.symm
    | cons first rest =>
      rw [hsplit] at hparts hs
      simp only [List.mapM_cons, Option.bind_eq_bind, Option.bind_eq_some_iff, Option.pure_def]
        at hparts
      obtain ⟨first', hfirst, rest', hrest, hcons⟩ := hparts
      cases hcons
      cases rest with
      | nil =>
        cases hrest
        obtain rfl : first' = [] := by simpa [join, List.intercalate_singleton] using hjoin
        rw [pathUnescape_eq_nil.mp hfirst] at hs
        exact hs.symm
      | cons second rest =>
        -- two segments leave the slash between them
        simp only [List.mapM_cons, Option.bind_eq_bind, Option.bind_eq_some_iff, Option.pure_def]
          at hrest
        obtain ⟨second', -, rest'', -, hcons⟩ := hrest
        cases hcons
        rw [join, List.intercalate_cons_cons] at hjoin
        simp [str] at hjoin
  · rintro rfl
    decide

theorem splitPath_eq_nil {p : Bytes} :
    splitPath p = some ([], []) ↔ trimPrefix p (str "/") = [] ∨ trimPrefix p (str "/") = [ch '/'] := by
  -- without a slash the path is a bucket alone; with one, a key follows
  unfold splitPath
  rcases cut_cases (ch '/') (trimPrefix p (str "/")) with ⟨hnone, hcut⟩ | ⟨a, b, ha, hp, hcut⟩
  · rw [hcut]
    simp only [Option.bind_eq_bind, Option.bind_eq_some_iff, Option.some.injEq, Prod.mk.injEq]
    constructor
    · rintro ⟨bucket, hbucket, key, -, rfl, -⟩
      exact .inl (pathUnescape_eq_nil.mp hbucket)
    · rintro (h | h)
      · exact ⟨[], pathUnescape_eq_nil.mpr h, [], unescapeKey_eq_nil.mpr rfl, rfl, rfl⟩
      · exact absurd (h ▸ List.mem_cons_self) hnone
  · rw [hcut, hp]
    simp only [Option.bind_eq_bind, Option.bind_eq_some_iff, Option.some.injEq, Prod.mk.injEq]
    constructor
    · rintro ⟨bucket, hbucket, key, hkey, rfl, rfl⟩
      rw [pathUnescape_eq_nil.mp hbucket, unescapeKey_eq_nil.mp hkey]
      exact .inr rfl
    · rintro (h | h)
      · simp at h
      · obtain ⟨rfl, rfl⟩ : a = [] ∧ b = [] := by
          cases a with
          | nil => exact ⟨rfl, (List.cons.inj h).2⟩
          | cons x a => simp at h
        exact ⟨[], rfl, [], unescapeKey_eq_nil.mpr rfl, rfl, rfl⟩

/-! ## The two readings -/

theorem trimPrefix_slash (p : Bytes) : trimPrefix (ch '/' :: p) (str "/") = p := by
  have hcut : cutPrefix (str "/" ++ p) (str "/") = some p := cutPrefix_append _ _
  unfold trimPrefix
  rw [show ch '/' :: p = str "/" ++ p from rfl, hcut]
  rfl

theorem canonicalURI_opaquePart {u : URL} (h : u.opaquePart ≠ []) :
    ∃ p, canonicalURI u = ch '/' :: p := by
  unfold canonicalURI
  rw [if_pos h]
  generalize trimPrefix (cut (ch '?') u.opaquePart).1 (str "//") = s
  dsimp only
  split
  · exact ⟨[], rfl⟩
  · rename_i hne
    obtain ⟨b, p, hbp⟩ := List.exists_cons_of_ne_nil hne
    have hb := List.head?_dropWhile_not (· ≠ ch '/') s
    rw [hbp] at hb ⊢
    simp only [List.head?_cons] at hb
    have hslash : b = ch '/' := by simpa using hb
    exact ⟨p, by rw [hslash]⟩

section Target

variable [Unicode] (parseAuthority : Bytes → Option Bytes) (vhostSuffix : Bytes) (r : Request)

/-- A request line in origin or absolute form: an empty path is signed as a slash,
    which resolves to the same. -/
theorem targetOfPath_canonicalURI {u : URL} (h : u.opaquePart = []) (host : Bytes) :
    targetOfPath vhostSuffix host (canonicalURI u) = targetOfPath vhostSuffix host u.escapedPath := by
  have hpath : canonicalURI u = if u.escapedPath = [] then str "/" else u.escapedPath := by
    simp [canonicalURI, h]
  rw [hpath]
  split
  · rename_i hempty
    rw [hempty]
    unfold targetOfPath splitPath
    rfl
  · rfl

/-- The empty path and one that starts with a slash resolve alike only if nothing but
    slashes follows: nothing under a virtual host, at most one more slash in path style. -/
theorem targetOfPath_nil_iff (host p : Bytes) :
    targetOfPath vhostSuffix host [] = targetOfPath vhostSuffix host (ch '/' :: p) ↔
      p = [] ∨ virtualHostBucket vhostSuffix host = none ∧ p = [ch '/'] := by
  -- a virtual host leaves the path to the key, path style splits it
  unfold targetOfPath
  cases virtualHostBucket vhostSuffix host with
  | some bucket =>
    have hempty : unescapeKey (trimPrefix [] (str "/")) = some [] := by decide
    simp only [hempty, trimPrefix_slash]
    constructor
    · intro h
      obtain ⟨key, hkey, htarget⟩ := Option.map_eq_some_iff.mp h.symm
      cases htarget
      exact .inl (unescapeKey_eq_nil.mp hkey)
    · rintro (rfl | ⟨hnone, -⟩)
      · rw [unescapeKey_eq_nil.mpr rfl]
      · cases hnone
  | none =>
    have hempty : splitPath [] = some ([], []) := by decide
    simp only [hempty]
    constructor
    · intro h
      obtain ⟨⟨bucket, key⟩, hsplit, htarget⟩ := Option.map_eq_some_iff.mp h.symm
      cases htarget
      have hp := splitPath_eq_nil.mp hsplit
      rw [trimPrefix_slash] at hp
      exact hp.imp_right fun hp => ⟨trivial, hp⟩
    · intro h
      rw [splitPath_eq_nil.mpr (by rw [trimPrefix_slash]; exact h.imp_right And.right)]

omit [Unicode] in
theorem escapedPath_of_opaquePart {u : URL} {uri : Bytes} (h : parseRequestURI parseAuthority uri = some u)
    (hpart : u.opaquePart ≠ []) : u.escapedPath = [] := by
  obtain ⟨hpath, hraw⟩ := (parseRequestURI_opaquePart h).resolve_left hpart
  rw [URL.escapedPath, hpath, hraw]
  rfl

/-- The two readings of a request agree, except on a request line in opaque form whose opaque part
    holds a path that is not empty. -/
theorem requestTarget_signed_iff
    (h : parseRequestURI parseAuthority r.requestURI = some r.url) :
    requestTarget vhostSuffix r =
        targetOfPath vhostSuffix r.host (canonicalURI (signedURL parseAuthority r)) ↔
      r.url.opaquePart = [] ∨ canonicalURI (signedURL parseAuthority r) = str "/" ∨
        virtualHostBucket vhostSuffix r.host = none ∧
          canonicalURI (signedURL parseAuthority r) = str "//" := by
  rw [signedURL_eq h]
  unfold requestTarget
  by_cases hpart : r.url.opaquePart = []
  · rw [targetOfPath_canonicalURI vhostSuffix hpart]
    exact ⟨fun _ => .inl hpart, fun _ => rfl⟩
  · -- no path was parsed, so the empty one is executed
    obtain ⟨p, hp⟩ := canonicalURI_opaquePart hpart
    have hone : ch '/' :: p = str "/" ↔ p = [] := by
      rw [show str "/" = [ch '/'] from rfl, List.cons_eq_cons, and_iff_right rfl]
    have htwo : ch '/' :: p = str "//" ↔ p = [ch '/'] := by
      rw [show str "//" = [ch '/', ch '/'] from rfl, List.cons_eq_cons, and_iff_right rfl]
    rw [escapedPath_of_opaquePart parseAuthority h hpart, hp, targetOfPath_nil_iff, hone, htwo]
    exact ⟨.inr, fun h => h.resolve_left hpart⟩

omit [Unicode] in
theorem handler_ne_handle {r : Request} (h : r.url.escapedPath = []) : handler r ≠ .handle r := by
  unfold handler
  rw [h]
  split
  · simp
  · split
    · simp [hasPrefix, str]
    · simp [cleanPath, str_slash]

/-- What a request that reaches the gateway executes is what was signed.  One in opaque form
    has an empty path, so the mux answers it itself. -/
theorem handled_target_signed (h : parseRequestURI parseAuthority r.requestURI = some r.url)
    (hhandled : handler r = .handle r) :
    requestTarget vhostSuffix r =
      targetOfPath vhostSuffix r.host (canonicalURI (signedURL parseAuthority r)) := by
  refine (requestTarget_signed_iff parseAuthority vhostSuffix r h).mpr (.inl ?_)
  by_contra hpart
  exact handler_ne_handle (escapedPath_of_opaquePart parseAuthority h hpart) hhandled

end Target

/-- A request as a server reads it off the line `GET requestURI`. -/
def sentRequest (requestURI : Bytes) (url : URL) : Request where
  method := str "GET"
  requestURI
  url
  host := str "s3.example"
  header := []
  contentLength := 0
  remoteAddr := []

/-- In absolute form the signed path is executed. -/
theorem absoluteForm_executed :
    let _ := asciiTables
    let r := sentRequest (str "http://s3.example/bucket/key")
      { scheme := str "http", host := str "s3.example", path := str "/bucket/key" }
    handler r = .handle r ∧ canonicalURI (signedURL some r) = str "/bucket/key" ∧
      requestTarget [] r = some { bucket := str "bucket", key := str "key" } ∧
      requestTarget [] r = targetOfPath [] r.host (canonicalURI (signedURL some r)) := by
  intro _ r
  have hhandled : handler r = .handle r := by decide +kernel
  exact ⟨hhandled, by decide +kernel, by decide +kernel,
    handled_target_signed some [] r (by decide +kernel) hhandled⟩

/-- In opaque form the two readings differ, and the mux answers. -/
example :
    let _ := asciiTables
    let r := sentRequest (str "http:s3.example/bucket/key")
      { scheme := str "http", opaquePart := str "s3.example/bucket/key" }
    canonicalURI (signedURL some r) = str "/bucket/key" ∧ requestTarget [] r = some { bucket := [], key := [] } ∧
      handler r = .redirect (str "/") [] := by
  decide +kernel

end S3Gateway.S3gw
