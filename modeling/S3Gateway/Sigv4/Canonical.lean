import S3Gateway.Go.Http
import S3Gateway.Go.Space
import S3Gateway.Library.Fallible
import S3Gateway.Library.Fields

/-! # The canonical request

`canonical.go`: the text a signature is computed over.  It is an injective encoding of
what it covers.  Names may contain anything that is no newline and the path anything at
all, so the text is read back from its end. -/

namespace S3Gateway.Sigv4

open Go Fallible

def newline : UInt8 := ch '\n'

/-! ## Path and query -/

def canonicalURI (u : URL) : Bytes :=
  let p :=
    if u.opaquePart ≠ [] then
      -- the path starts at the first "/" after the authority
      (trimPrefix (cut (ch '?') u.opaquePart).1 (str "//")).dropWhile (· ≠ ch '/')
    else u.escapedPath
  if p = [] then str "/" else p

/-- The query less the dropped parameter, `q.Del(drop)`. -/
def signedQuery (u : URL) (drop : Bytes) : Values :=
  if drop ≠ [] then u.query.filter (·.1 ≠ drop) else u.query

def canonicalQuery (u : URL) (drop : Bytes) : Bytes :=
  let q := signedQuery u drop
  let sorted : Values := q.keys.flatMap fun k => (sortStrings (q.valuesOf k)).map (k, ·)
  replaceAll sorted.encode (str "+") (str "%20")

/-! ## Header values -/

/-- One run of spaces and tabs at a time, each kept as one space. -/
def squeeze : Bool → Bytes → Bytes
  | _, [] => []
  | inRun, c :: rest =>
    if c = ch ' ' ∨ c = ch '\t' then
      if inRun then squeeze true rest else ch ' ' :: squeeze true rest
    else c :: squeeze false rest

def collapseWhitespace (v : Bytes) : Bytes :=
  let v := trimSpace v
  if !contains v (str "  ") && !contains v (str "\t") then v else squeeze false v

/-- The values a signed header is canonicalized from. -/
def wireValues (r : Request) (name : Bytes) : List Bytes :=
  if name = str "host" then [if r.host = [] then r.url.host else r.host]
  else if name = str "content-length" then
    let values := r.header.valuesOf (str "Content-Length")
    if values = [] ∧ 0 < r.contentLength then [formatInt r.contentLength] else values
  else r.header.valuesOf name

/-- `canonicalHeaderValue(r, name)`; the error names the missing header. -/
def canonicalHeaderValue (r : Request) (name : Bytes) : Except Bytes Bytes :=
  let values := wireValues r name
  if values = [] then .error name
  else .ok (join (values.map collapseWhitespace) (str ","))

/-! ## The request -/

/-- The loop over the signed headers: one line for each. -/
def canonicalHeaders (r : Request) : List Bytes → Except Bytes (List Bytes)
  | [] => .ok []
  | name :: rest => do
    let v ← canonicalHeaderValue r name
    let lines ← canonicalHeaders r rest
    .ok ((name ++ str ":" ++ v) :: lines)

section Request

variable (parseAuthority : Bytes → Option Bytes) (r : Request)

/-- The URL that is signed: that of the request line, if it parses. -/
def signedURL : URL := (parseRequestURI parseAuthority r.requestURI).getD r.url

theorem signedURL_eq {parseAuthority : Bytes → Option Bytes} {r : Request}
    (h : parseRequestURI parseAuthority r.requestURI = some r.url) :
    signedURL parseAuthority r = r.url := by
  unfold signedURL
  rw [h]
  rfl

def canonicalRequest (signedHeaders : List Bytes) (dropQuery payloadHash : Bytes) :
    Except Bytes Bytes := do
  let u := signedURL parseAuthority r
  let lines ← canonicalHeaders r signedHeaders
  .ok (r.method ++ str "\n" ++ canonicalURI u ++ str "\n" ++ canonicalQuery u dropQuery ++ str "\n" ++
    lines.flatMap (· ++ str "\n") ++ str "\n" ++ join signedHeaders (str ";") ++ str "\n" ++ payloadHash)

end Request

/-! ## The query is read back -/

def signedByte (b : UInt8) : Bytes := if b = ch ' ' then str "%20" else escapeByte .queryComponent b

def escapeSigned (s : Bytes) : Bytes := s.flatMap signedByte

def encodePair (p : Bytes × Bytes) : Bytes := escapeSigned p.1 ++ ch '=' :: escapeSigned p.2

def encodePairs (q : Values) : Bytes := join (q.map encodePair) (str "&")

/-- The bytes escaping leaves: none of them separates anything. -/
def isPlain (b : UInt8) : Bool := isAlnum b || b ∈ [ch '-', ch '_', ch '.', ch '~', ch '%']

theorem isPlain_of_mem_escapeSigned {s : Bytes} {x : UInt8} (h : x ∈ escapeSigned s) :
    isPlain x = true := by
  have hbyte : ∀ b, (signedByte b).all isPlain = true := forall_byte (by decide +kernel)
  obtain ⟨b, -, hx⟩ := List.mem_flatMap.mp h
  exact List.all_eq_true.mp (hbyte b) x hx

theorem not_mem_escapeSigned {x : UInt8} (hx : isPlain x = false) (s : Bytes) :
    x ∉ escapeSigned s := by
  intro h
  rw [isPlain_of_mem_escapeSigned h] at hx
  cases hx

theorem queryUnescape_escapeSigned (s : Bytes) : queryUnescape (escapeSigned s) = some s := by
  unfold queryUnescape
  induction s with
  | nil => rfl
  | cons b rest ih =>
    have hbyte : unescape .queryComponent (signedByte b ++ escapeSigned rest) =
        (unescape .queryComponent (escapeSigned rest)).map (b :: ·) := by
      unfold signedByte
      split
      · rename_i hspace
        subst hspace
        have hhi : hexVal (ch '2') = some 2 := by decide
        have hlo : hexVal (ch '0') = some 0 := by decide
        exact unescape_percent .queryComponent hhi hlo _
      · exact unescape_escapeByte .queryComponent b _
    change unescape .queryComponent (signedByte b ++ escapeSigned rest) = _
    rw [hbyte, ih]
    rfl

theorem not_mem_encodePair {x : UInt8} (hx : isPlain x = false) (hne : x ≠ ch '=')
    (p : Bytes × Bytes) : x ∉ encodePair p := by
  intro h
  rcases List.mem_append.mp h with h | h
  · exact not_mem_escapeSigned hx _ h
  · rcases List.mem_cons.mp h with h | h
    · exact hne h
    · exact not_mem_escapeSigned hx _ h

theorem parsePair_encodePair (p : Bytes × Bytes) : parsePair (encodePair p) = some p := by
  have hcut : cut (ch '=') (encodePair p) = (escapeSigned p.1, escapeSigned p.2, true) :=
    cut_append (not_mem_escapeSigned (by decide) _)
  have hne : encodePair p ≠ [] := by simp [encodePair]
  unfold parsePair
  rw [if_neg (not_mem_encodePair (by decide) (by decide) p), if_neg hne, hcut]
  simp [queryUnescape_escapeSigned]

theorem parseQuery_encodePairs (q : Values) : parseQuery (encodePairs q) = q := by
  unfold parseQuery encodePairs
  cases q with
  | nil => rfl
  | cons p rest =>
    have hsplit : split (ch '&') (join ((p :: rest).map encodePair) (str "&")) =
        (p :: rest).map encodePair := by
      refine List.splitOn_intercalate (ch '&') (fun part hpart => ?_) (by simp)
      obtain ⟨p', -, rfl⟩ := List.mem_map.mp hpart
      exact not_mem_encodePair (by decide) (by decide) p'
    rw [hsplit, List.filterMap_map]
    have hparse : parsePair ∘ encodePair = some := funext parsePair_encodePair
    rw [hparse, List.filterMap_some]

theorem canonicalQuery_eq (u : URL) (drop : Bytes) :
    canonicalQuery u drop =
      encodePairs (Multimap.listing stringSorting stringSorting (signedQuery u drop)) := by
  let q := signedQuery u drop
  let sorted : Values := q.keys.flatMap fun k => (sortStrings (q.valuesOf k)).map (k, ·)
  have hvalues : ∀ k, sorted.valuesOf k = sortStrings (q.valuesOf k) :=
    fun k => Multimap.valuesOf_sorted stringSorting (List.Perm.refl _) k
  have hkeys : sortStrings sorted.keys = sortStrings q.keys := by
    refine sortStrings_eq_of_perm (Multimap.keys_perm fun k => ?_)
    change sorted.valuesOf k = [] ↔ q.valuesOf k = []
    rw [hvalues, ← List.length_eq_zero_iff, (sortStrings_perm _).length_eq, List.length_eq_zero_iff]
  -- plus signs only come from escaping spaces
  have hbyte : ∀ b : UInt8, ((escapeByte .queryComponent b).flatMap fun x =>
      if x = ch '+' then str "%20" else [x]) = signedByte b := forall_byte (by decide +kernel)
  have hescape : ∀ s, (queryEscape s).flatMap (fun x => if x = ch '+' then str "%20" else [x]) =
      escapeSigned s := by
    intro s
    unfold queryEscape escape escapeSigned
    rw [List.flatMap_assoc]
    exact List.flatMap_congr fun b _ => hbyte b
  have hpair : ∀ k x, (queryEscape k ++ str "=" ++ queryEscape x).flatMap
      (fun x => if x = ch '+' then str "%20" else [x]) = encodePair (k, x) := by
    intro k x
    have hequals : (str "=").flatMap (fun x => if x = ch '+' then str "%20" else [x]) = [ch '='] := by
      decide
    rw [List.flatMap_append, List.flatMap_append, hescape, hescape, hequals]
    simp [encodePair]
  change replaceAll sorted.encode [ch '+'] (str "%20") = _
  rw [replaceAll_byte, Values.encode, hkeys]
  have hparts : ((sortStrings q.keys).flatMap fun k =>
      (sorted.valuesOf k).map fun x => queryEscape k ++ str "=" ++ queryEscape x).map
        (·.flatMap fun x => if x = ch '+' then str "%20" else [x]) =
      (Multimap.listing stringSorting stringSorting q).map encodePair := by
    unfold Multimap.listing
    rw [List.map_flatMap, List.map_flatMap]
    refine List.flatMap_congr fun k _ => ?_
    rw [hvalues, List.map_map, List.map_map]
    exact List.map_congr_left fun x _ => hpair k x
  unfold join encodePairs
  rw [Fields.flatMap_intercalate, hparts]
  rfl

theorem valuesOf_signedQuery {u : URL} {drop k : Bytes} (hk : k ≠ drop) :
    (signedQuery u drop).valuesOf k = u.query.valuesOf k := by
  unfold signedQuery
  split
  · unfold Values.valuesOf Multimap.valuesOf
    rw [List.filter_filter]
    congr 1
    apply List.filter_congr
    intro p _
    by_cases hp : p.1 = k
    · simp [hp, hk]
    · simp [hp]
  · rfl

theorem valuesOf_canonicalQuery {u : URL} {drop k : Bytes} (hk : k ≠ drop) :
    (parseQuery (canonicalQuery u drop)).valuesOf k = sortStrings (u.query.valuesOf k) := by
  rw [canonicalQuery_eq, parseQuery_encodePairs, ← valuesOf_signedQuery hk]
  exact Multimap.valuesOf_listing stringSorting stringSorting _ k

theorem not_mem_canonicalQuery {x : UInt8} (hx : isPlain x = false) (heq : x ≠ ch '=')
    (hamp : x ≠ ch '&') (u : URL) (drop : Bytes) : x ∉ canonicalQuery u drop := by
  intro h
  rw [canonicalQuery_eq] at h
  rcases Fields.mem_intercalate h with h | ⟨part, hpart, h⟩
  · exact hamp h
  · obtain ⟨p, -, rfl⟩ := List.mem_map.mp hpart
    exact not_mem_encodePair hx heq p h

/-- Queries with the same canonical form have the same values under every key, in
    some order. -/
theorem canonicalQuery_eq_iff (u₁ u₂ : URL) (drop : Bytes) :
    canonicalQuery u₁ drop = canonicalQuery u₂ drop ↔
      ∀ k, ((signedQuery u₁ drop).valuesOf k).Perm ((signedQuery u₂ drop).valuesOf k) := by
  rw [canonicalQuery_eq, canonicalQuery_eq]
  refine Iff.trans ⟨fun h => ?_, fun h => by rw [h]⟩
    (Multimap.listing_eq_iff stringSorting stringSorting _ _)
  have hparse := congrArg parseQuery h
  rwa [parseQuery_encodePairs, parseQuery_encodePairs] at hparse

/-! ## The header lines are read back -/

/-- The canonical value of a header the request has. -/
def signedValue (r : Request) (name : Bytes) : Bytes :=
  join ((wireValues r name).map collapseWhitespace) (str ",")

theorem canonicalHeaderValue_eq_ok {r : Request} {name v : Bytes} :
    canonicalHeaderValue r name = .ok v ↔ wireValues r name ≠ [] ∧ v = signedValue r name := by
  unfold canonicalHeaderValue signedValue
  by_cases hvalues : wireValues r name = []
  · simp [hvalues]
  · simp [hvalues, eq_comm]

theorem canonicalHeaders_eq_ok {r : Request} {names lines : List Bytes} :
    canonicalHeaders r names = .ok lines ↔
      (∀ name ∈ names, wireValues r name ≠ []) ∧
        lines = names.map (Fields.labelled (ch ':') (signedValue r)) := by
  induction names generalizing lines with
  | nil =>
    rw [canonicalHeaders, Except.ok.injEq]
    exact ⟨fun h => ⟨by simp, h.symm⟩, fun h => h.2.symm⟩
  | cons name rest ih =>
    have hline : ∀ v : Bytes, name ++ str ":" ++ v = name ++ ch ':' :: v := by
      intro v
      rw [List.append_assoc]
      rfl
    rw [canonicalHeaders, bind_eq_ok]
    simp only [canonicalHeaderValue_eq_ok, bind_eq_ok, ih, List.forall_mem_cons, List.map_cons]
    constructor
    · rintro ⟨v, ⟨hname, rfl⟩, lines', ⟨hrest, rfl⟩, hlines⟩
      cases hlines
      exact ⟨⟨hname, hrest⟩, by rw [hline]; rfl⟩
    · rintro ⟨⟨hname, hrest⟩, rfl⟩
      exact ⟨_, ⟨hname, rfl⟩, _, ⟨hrest, rfl⟩, by rw [hline]; rfl⟩

theorem mem_squeeze {inRun : Bool} {s : Bytes} {x : UInt8} (h : x ∈ squeeze inRun s) :
    x = ch ' ' ∨ x ∈ s := by
  induction s generalizing inRun with
  | nil => cases h
  | cons c rest ih =>
    rw [squeeze] at h
    split at h
    · split at h
      · exact (ih h).imp_right (List.mem_cons_of_mem _)
      · rcases List.mem_cons.mp h with h | h
        · exact .inl h
        · exact (ih h).imp_right (List.mem_cons_of_mem _)
    · rcases List.mem_cons.mp h with h | h
      · exact .inr (by rw [h]; exact List.mem_cons_self)
      · exact (ih h).imp_right (List.mem_cons_of_mem _)

theorem mem_collapseWhitespace {v : Bytes} {x : UInt8} (h : x ∈ collapseWhitespace v) :
    x = ch ' ' ∨ x ∈ v := by
  unfold collapseWhitespace at h
  dsimp only at h
  split at h
  · exact .inr (mem_of_mem_trimSpace h)
  · exact (mem_squeeze h).imp_right mem_of_mem_trimSpace

theorem newline_not_mem_wireValues {r : Request} (hr : r.Received) {name v : Bytes}
    (hv : v ∈ wireValues r name) : newline ∉ v := by
  have hheader : ∀ name, v ∈ r.header.valuesOf name → newline ∉ v := by
    intro name hv
    obtain ⟨line, hline, rfl⟩ := List.mem_map.mp hv
    exact (hr.header line (List.mem_of_mem_filter hline)).2
  unfold wireValues at hv
  split at hv
  · obtain rfl := List.mem_singleton.mp hv
    split
    · exact hr.urlHost
    · exact hr.host
  · split at hv
    · dsimp only at hv
      split at hv
      · obtain rfl := List.mem_singleton.mp hv
        exact newline_not_mem_formatInt _
      · exact hheader _ hv
    · exact hheader _ hv

theorem newline_not_mem_signedValue {r : Request} (hr : r.Received) (name : Bytes) :
    newline ∉ signedValue r name := by
  intro h
  rcases Fields.mem_intercalate h with h | ⟨part, hpart, h⟩
  · exact absurd h (by decide)
  · obtain ⟨v, hv, rfl⟩ := List.mem_map.mp hpart
    rcases mem_collapseWhitespace h with h | h
    · exact absurd h (by decide)
    · exact newline_not_mem_wireValues hr hv h

theorem newline_not_mem_name {r : Request} (hr : r.Received) {name : Bytes}
    (h : wireValues r name ≠ []) : newline ∉ name := by
  unfold wireValues at h
  split at h
  · rename_i hhost
    rw [hhost]
    decide
  · split at h
    · rename_i hlength
      rw [hlength]
      decide
    · obtain ⟨v, hv⟩ := List.exists_mem_of_ne_nil _ h
      obtain ⟨line, hline, -⟩ := List.mem_map.mp hv
      obtain ⟨hmem, hkey⟩ := List.mem_filter.mp hline
      rw [decide_eq_true_eq] at hkey
      intro hnewline
      -- a name with a newline is no token, so it is its own key
      have hself : canonicalHeaderKey name = name := by
        unfold canonicalHeaderKey
        rw [if_neg]
        intro htoken
        exact absurd (List.all_eq_true.mp htoken _ hnewline) (by decide)
      exact (hr.header line hmem).1 (by rw [hkey, hself]; exact hnewline)

/-! ## The text is read back -/

section Injective

variable (parseAuthority : Bytes → Option Bytes)

def signedLines (r : Request) (names : List Bytes) (drop payloadHash : Bytes) : List Bytes :=
  canonicalQuery (signedURL parseAuthority r) drop ::
    (names.map (Fields.labelled (ch ':') (signedValue r)) ++
      [[], join names (str ";"), payloadHash])

theorem canonicalRequest_eq_ok {r : Request} {names : List Bytes} {drop payloadHash s : Bytes} :
    canonicalRequest parseAuthority r names drop payloadHash = .ok s ↔
      (∀ name ∈ names, wireValues r name ≠ []) ∧
        s = (r.method ++ newline :: canonicalURI (signedURL parseAuthority r)) ++
          newline :: [newline].intercalate (signedLines parseAuthority r names drop payloadHash) := by
  have hlines : [newline].intercalate (signedLines parseAuthority r names drop payloadHash) =
      canonicalQuery (signedURL parseAuthority r) drop ++ str "\n" ++
        (names.map (Fields.labelled (ch ':') (signedValue r))).flatMap (· ++ str "\n") ++
        str "\n" ++ join names (str ";") ++ str "\n" ++ payloadHash := by
    have hlast := Fields.intercalate_append_last newline
      (canonicalQuery (signedURL parseAuthority r) drop ::
        (names.map (Fields.labelled (ch ':') (signedValue r)) ++ [[], join names (str ";")]))
      payloadHash
    have hnewline : str "\n" = [newline] := by decide
    simp only [List.cons_append, List.append_assoc, List.nil_append] at hlast
    unfold signedLines
    rw [hlast, hnewline]
    simp
  unfold canonicalRequest
  simp only [bind_eq_ok, canonicalHeaders_eq_ok, hlines]
  constructor
  · rintro ⟨lines, ⟨hnames, rfl⟩, hs⟩
    cases hs
    exact ⟨hnames, by simp [show str "\n" = [newline] by decide]⟩
  · rintro ⟨hnames, rfl⟩
    exact ⟨_, ⟨hnames, rfl⟩, by simp [show str "\n" = [newline] by decide]⟩

theorem line_within_canonicalRequest {r : Request} {names : List Bytes} {drop payloadHash s name : Bytes}
    (h : canonicalRequest parseAuthority r names drop payloadHash = .ok s) (hname : name ∈ names) :
    newline :: (name ++ ch ':' :: signedValue r name) ++ [newline] <:+: s := by
  obtain ⟨lines, hlines, hs⟩ := bind_eq_ok.mp h
  cases hs
  obtain ⟨-, rfl⟩ := canonicalHeaders_eq_ok.mp hlines
  have hline : name ++ ch ':' :: signedValue r name ∈
      names.map (Fields.labelled (ch ':') (signedValue r)) := List.mem_map.mpr ⟨name, hname, rfl⟩
  refine (Fields.mem_lines_within newline hline).trans ?_
  rw [show str "\n" = [newline] by decide]
  exact ⟨r.method ++ [newline] ++ canonicalURI (signedURL parseAuthority r) ++ [newline] ++
      canonicalQuery (signedURL parseAuthority r) drop,
    [newline] ++ join names (str ";") ++ [newline] ++ payloadHash, by simp⟩

/-- Two requests agree on everything a canonical request covers. -/
structure SameSigned (r₁ r₂ : Request) (names₁ names₂ : List Bytes) (drop hash₁ hash₂ : Bytes) :
    Prop where
  method : r₁.method = r₂.method
  uri : canonicalURI (signedURL parseAuthority r₁) = canonicalURI (signedURL parseAuthority r₂)
  query : ∀ k, ((signedQuery (signedURL parseAuthority r₁) drop).valuesOf k).Perm
    ((signedQuery (signedURL parseAuthority r₂) drop).valuesOf k)
  names : names₁ = names₂
  headers : ∀ name ∈ names₁, ∃ v,
    canonicalHeaderValue r₁ name = .ok v ∧ canonicalHeaderValue r₂ name = .ok v
  payloadHash : hash₁ = hash₂

variable {r : Request} {names : List Bytes} {drop payloadHash : Bytes}

theorem newline_not_mem_signedLines (hr : r.Received)
    (hnames : ∀ name ∈ names, wireValues r name ≠ []) (hhash : newline ∉ payloadHash) :
    ∀ line ∈ signedLines parseAuthority r names drop payloadHash, newline ∉ line := by
  intro line hline
  rcases List.mem_cons.mp hline with rfl | hline
  · exact not_mem_canonicalQuery (by decide) (by decide) (by decide) _ _
  · rcases List.mem_append.mp hline with hline | hline
    · obtain ⟨name, hname, rfl⟩ := List.mem_map.mp hline
      intro h
      rcases List.mem_append.mp h with h | h
      · exact newline_not_mem_name hr (hnames name hname) h
      · rcases List.mem_cons.mp h with h | h
        · exact absurd h (by decide)
        · exact newline_not_mem_signedValue hr name h
    · simp only [List.mem_cons, List.not_mem_nil, or_false] at hline
      rcases hline with rfl | rfl | rfl
      · simp
      · intro h
        rcases Fields.mem_intercalate h with h | ⟨name, hname, h⟩
        · exact absurd h (by decide)
        · exact newline_not_mem_name hr (hnames name hname) h
      · exact hhash

/-- The lines determine what stands in them: the query is the last line without a
    colon before the empty one. -/
theorem signedLines_unique {r₁ r₂ : Request} {names₁ names₂ : List Bytes} {hash₁ hash₂ : Bytes}
    {front₁ front₂ : List Bytes}
    (h : front₁ ++ signedLines parseAuthority r₁ names₁ drop hash₁ =
      front₂ ++ signedLines parseAuthority r₂ names₂ drop hash₂) :
    front₁ = front₂ ∧
      canonicalQuery (signedURL parseAuthority r₁) drop =
        canonicalQuery (signedURL parseAuthority r₂) drop ∧
      names₁ = names₂ ∧ (∀ name ∈ names₁, signedValue r₁ name = signedValue r₂ name) ∧
      hash₁ = hash₂ := by
  unfold signedLines at h
  rw [← List.cons_append, ← List.cons_append, ← List.append_assoc, ← List.append_assoc] at h
  obtain ⟨hlines, hend⟩ := List.append_inj' h rfl
  obtain ⟨-, hjoined, hhash, -⟩ : True ∧ join names₁ (str ";") = join names₂ (str ";") ∧
      hash₁ = hash₂ ∧ True := by simpa using hend
  have hcolon : ∀ (r : Request) (names : List Bytes),
      ∀ line ∈ names.map (Fields.labelled (ch ':') (signedValue r)), ch ':' ∈ line := by
    intro r names line hline
    obtain ⟨name, -, rfl⟩ := List.mem_map.mp hline
    simp [Fields.labelled]
  have hquery : ∀ u : URL, ch ':' ∉ canonicalQuery u drop := fun u =>
    not_mem_canonicalQuery (by decide) (by decide) (by decide) u drop
  obtain ⟨hfront, hq, hheaders⟩ := Fields.trailing_run_unique (p := fun line => ch ':' ∈ line)
    (hquery _) (hquery _) (hcolon r₁ names₁) (hcolon r₂ names₂) hlines
  obtain ⟨hnames, hvalues⟩ :=
    Fields.labels_unique (ch ':') (ch ';') (by decide) hheaders hjoined
  exact ⟨hfront, hq, hnames, hvalues, hhash⟩

section Pair

variable {r₁ r₂ : Request} {names₁ names₂ : List Bytes} {drop hash₁ hash₂ s : Bytes}

theorem sameSigned_of_canonicalRequest (hr₁ : r₁.Received) (hr₂ : r₂.Received)
    (hhash₁ : newline ∉ hash₁) (hhash₂ : newline ∉ hash₂)
    (h₁ : canonicalRequest parseAuthority r₁ names₁ drop hash₁ = .ok s)
    (h₂ : canonicalRequest parseAuthority r₂ names₂ drop hash₂ = .ok s) :
    SameSigned parseAuthority r₁ r₂ names₁ names₂ drop hash₁ hash₂ := by
  obtain ⟨hnames₁, rfl⟩ := (canonicalRequest_eq_ok parseAuthority).mp h₁
  obtain ⟨hnames₂, hs⟩ := (canonicalRequest_eq_ok parseAuthority).mp h₂
  have hsplit := congrArg (List.splitOn newline) hs
  rw [Fields.splitOn_append_fields _
      (newline_not_mem_signedLines parseAuthority hr₁ hnames₁ hhash₁) (by simp [signedLines]),
    Fields.splitOn_append_fields _
      (newline_not_mem_signedLines parseAuthority hr₂ hnames₂ hhash₂) (by simp [signedLines])]
    at hsplit
  obtain ⟨hfront, hquery, hnames, hvalues, hhash⟩ := signedLines_unique parseAuthority hsplit
  obtain ⟨hmethod, huri⟩ :=
    Fields.append_sep_inj hr₁.method hr₂.method (Fields.splitOn_injective hfront)
  refine ⟨hmethod, huri, (canonicalQuery_eq_iff _ _ _).mp hquery, hnames, ?_, hhash⟩
  intro name hname
  refine ⟨signedValue r₁ name, canonicalHeaderValue_eq_ok.mpr ⟨hnames₁ name hname, rfl⟩, ?_⟩
  exact canonicalHeaderValue_eq_ok.mpr ⟨hnames₂ name (hnames ▸ hname), hvalues name hname⟩

theorem canonicalRequest_of_sameSigned
    (h : SameSigned parseAuthority r₁ r₂ names₁ names₂ drop hash₁ hash₂) :
    ∃ s, canonicalRequest parseAuthority r₁ names₁ drop hash₁ = .ok s ∧
      canonicalRequest parseAuthority r₂ names₂ drop hash₂ = .ok s := by
  obtain ⟨hmethod, huri, hquery, rfl, hheaders, rfl⟩ := h
  have hvalues : ∀ name ∈ names₁, wireValues r₁ name ≠ [] ∧ wireValues r₂ name ≠ [] ∧
      signedValue r₁ name = signedValue r₂ name := by
    intro name hname
    obtain ⟨v, h₁, h₂⟩ := hheaders name hname
    obtain ⟨hne₁, rfl⟩ := canonicalHeaderValue_eq_ok.mp h₁
    obtain ⟨hne₂, hsame⟩ := canonicalHeaderValue_eq_ok.mp h₂
    exact ⟨hne₁, hne₂, hsame⟩
  have hlines : signedLines parseAuthority r₁ names₁ drop hash₁ =
      signedLines parseAuthority r₂ names₁ drop hash₁ := by
    have hmap : names₁.map (Fields.labelled (ch ':') (signedValue r₁)) =
        names₁.map (Fields.labelled (ch ':') (signedValue r₂)) := by
      apply List.map_congr_left
      intro name hname
      unfold Fields.labelled
      rw [(hvalues name hname).2.2]
    unfold signedLines
    rw [(canonicalQuery_eq_iff _ _ _).mpr hquery, hmap]
  simp only [canonicalRequest_eq_ok]
  refine ⟨_, ⟨fun name hname => (hvalues name hname).1, rfl⟩,
    fun name hname => (hvalues name hname).2.1, ?_⟩
  rw [hlines, hmethod, huri]

end Pair

/-- Two requests have one canonical request exactly if they agree on all it covers,
    whatever names their lists of signed headers hold. -/
theorem canonicalRequest_eq_iff (r₁ r₂ : Request) (names₁ names₂ : List Bytes)
    (drop hash₁ hash₂ : Bytes) (hr₁ : r₁.Received) (hr₂ : r₂.Received)
    (hhash₁ : newline ∉ hash₁) (hhash₂ : newline ∉ hash₂) :
    (∃ s, canonicalRequest parseAuthority r₁ names₁ drop hash₁ = .ok s ∧
        canonicalRequest parseAuthority r₂ names₂ drop hash₂ = .ok s) ↔
      SameSigned parseAuthority r₁ r₂ names₁ names₂ drop hash₁ hash₂ := by
  constructor
  · rintro ⟨s, h₁, h₂⟩
    exact sameSigned_of_canonicalRequest parseAuthority hr₁ hr₂ hhash₁ hhash₂ h₁ h₂
  · exact canonicalRequest_of_sameSigned parseAuthority

end Injective

def sampleRequest (requestURI rawQuery : Bytes) (header : Header) : Request where
  method := str "GET"
  requestURI
  url := { path := str "/bucket/key", rawQuery }
  host := str "s3.example"
  header
  contentLength := 0
  remoteAddr := []

theorem sampleRequest_received (requestURI rawQuery : Bytes) {header : Header}
    (h : ∀ line ∈ header, newline ∉ line.1 ∧ newline ∉ line.2) :
    (sampleRequest requestURI rawQuery header).Received where
  method := show ch '\n' ∉ str "GET" by decide
  host := show ch '\n' ∉ str "s3.example" by decide
  urlHost := List.not_mem_nil
  header := h

theorem sampleRequest_parsed {rawQuery : Bytes} (h : rawQuery.any isCTL = false) :
    parseRequestURI some (str "/bucket/key" ++ ch '?' :: rawQuery) = some { path := str "/bucket/key", rawQuery } := by
  have hbare : parseRequestURI some (str "/bucket/key" ++ ch '?' :: str "a") =
      some { path := str "/bucket/key", rawQuery := str "a" } := by decide +kernel
  exact (parseRequestURI_query (by decide) hbare h).2

/-- Another order of the query, another escaping and more spaces are the same request. -/
theorem reencoded_sameSigned :
    SameSigned some
      (sampleRequest (str "/bucket/key?prefix=a+b&marker=c") (str "prefix=a+b&marker=c")
        [(str "X-Amz-Date", str "1 2")])
      (sampleRequest (str "/bucket/key?marker=%63&prefix=a%20b") (str "marker=%63&prefix=a%20b")
        [(str "X-Amz-Date", str " 1   2")])
      [str "host", str "x-amz-date"] [str "host", str "x-amz-date"] [] (str "hash") (str "hash") :=
  (canonicalRequest_eq_iff some _ _ _ _ _ _ _ (sampleRequest_received _ _ (by decide))
    (sampleRequest_received _ _ (by decide)) (by decide) (by decide)).mp
    ⟨str "GET\n/bucket/key\nmarker=c&prefix=a%20b\nhost:s3.example\nx-amz-date:1 2\n\nhost;x-amz-date\nhash",
      by decide +kernel, by decide +kernel⟩

end S3Gateway.Sigv4
