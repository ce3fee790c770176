import S3Gateway.Go.Netip
import S3Gateway.Go.Sort

/-! # Percent-encoding and request URIs

The part of `net/url` the gateway relies on: escaping and unescaping in the path
and query modes, `ParseQuery`, `ParseRequestURI` and `EscapedPath`.  Which
authorities `net/url` accepts is left open. -/

namespace Go

/-! ## Escaping -/

/-- The `encoding` modes of `net/url` in use here. -/
inductive Encoding where
  | path
  | pathSegment
  | queryComponent
deriving DecidableEq

def isAlpha (b : UInt8) : Bool := (ch 'a' ≤ b && b ≤ ch 'z') || (ch 'A' ≤ b && b ≤ ch 'Z')

def isAlnum (b : UInt8) : Bool := isAlpha b || isDigit b

def shouldEscape (b : UInt8) (mode : Encoding) : Bool :=
  if isAlnum b then false
  else if b ∈ [ch '-', ch '_', ch '.', ch '~'] then false
  else if b ∈ [ch '$', ch '&', ch '+', ch ',', ch '/', ch ':', ch ';', ch '=', ch '?', ch '@'] then
    match mode with
    | .path => b == ch '?'
    | .pathSegment => b == ch '/' || b == ch ';' || b == ch ',' || b == ch '?'
    | .queryComponent => true
  else true

def hexDigit (n : Nat) : UInt8 := if n < 10 then ch '0' + n.toUInt8 else ch 'A' + (n - 10).toUInt8

def percentByte (b : UInt8) : Bytes := [ch '%', hexDigit (b.toNat / 16), hexDigit (b.toNat % 16)]

def escapeByte (mode : Encoding) (b : UInt8) : Bytes :=
  if shouldEscape b mode then
    if b = ch ' ' ∧ mode = .queryComponent then [ch '+'] else percentByte b
  else [b]

def escape (mode : Encoding) (s : Bytes) : Bytes := s.flatMap (escapeByte mode)

/-- `unescape(s, mode)`; `none` is the `EscapeError` of a `%` without two digits. -/
def unescape (mode : Encoding) : Bytes → Option Bytes
  | [] => some []
  | b :: rest =>
    if b = ch '%' then
      match rest with
      | h :: l :: rest => do
        let hi ← hexVal h
        let lo ← hexVal l
        let out ← unescape mode rest
        some ((hi * 16 + lo).toUInt8 :: out)
      | _ => none
    else do
      let out ← unescape mode rest
      some ((if b = ch '+' ∧ mode = .queryComponent then ch ' ' else b) :: out)

def pathUnescape (s : Bytes) : Option Bytes := unescape .pathSegment s

def queryUnescape (s : Bytes) : Option Bytes := unescape .queryComponent s

def queryEscape (s : Bytes) : Bytes := escape .queryComponent s

theorem unescape_percent (mode : Encoding) {h l : UInt8} {hi lo : Nat} (hh : hexVal h = some hi)
    (hl : hexVal l = some lo) (rest : Bytes) :
    unescape mode (ch '%' :: h :: l :: rest) =
      (unescape mode rest).map ((hi * 16 + lo).toUInt8 :: ·) := by
  conv_lhs => unfold unescape
  cases hrest : unescape mode rest <;> simp [hh, hl, hrest]

theorem unescape_cons (mode : Encoding) {b : UInt8} (hb : b ≠ ch '%') (rest : Bytes) :
    unescape mode (b :: rest) = (unescape mode rest).map
      ((if b = ch '+' ∧ mode = .queryComponent then ch ' ' else b) :: ·) := by
  conv_lhs => unfold unescape
  rw [if_neg hb]
  cases unescape mode rest <;> rfl

theorem unescape_escapeByte (mode : Encoding) (b : UInt8) (rest : Bytes) :
    unescape mode (escapeByte mode b ++ rest) = (unescape mode rest).map (b :: ·) := by
  have hdigits : ∀ b : UInt8, hexVal (hexDigit (b.toNat / 16)) = some (b.toNat / 16) ∧
      hexVal (hexDigit (b.toNat % 16)) = some (b.toNat % 16) ∧
      (b.toNat / 16 * 16 + b.toNat % 16).toUInt8 = b := forall_byte (by decide +kernel)
  have hkept : ∀ b mode, shouldEscape b mode = false →
      b ≠ ch '%' ∧ ¬(b = ch '+' ∧ mode = .queryComponent) := by
    refine forall_byte fun n mode => ?_
    revert n
    cases mode <;> decide +kernel
  -- three forms: a space as a plus, a percent and two digits, or the byte itself
  unfold escapeByte
  split
  · split
    · rename_i hspace
      obtain ⟨rfl, rfl⟩ := hspace
      exact unescape_cons .queryComponent (by decide) rest
    · obtain ⟨hhi, hlo, hbyte⟩ := hdigits b
      have hpercent := unescape_percent mode hhi hlo rest
      rw [hbyte] at hpercent
      exact hpercent
  · rename_i hkeep
    obtain ⟨hpercent, hplus⟩ := hkept b mode (by simpa using hkeep)
    have hcons := unescape_cons mode hpercent rest
    rw [if_neg hplus] at hcons
    exact hcons

theorem unescape_escape (mode : Encoding) (s : Bytes) : unescape mode (escape mode s) = some s := by
  induction s with
  | nil => rfl
  | cons b rest ih =>
    change unescape mode (escapeByte mode b ++ escape mode rest) = _
    rw [unescape_escapeByte, ih]
    rfl

/-- Outside a query component a plus sign is itself, so the other modes decode alike. -/
theorem unescape_pathSegment (s : Bytes) : unescape .pathSegment s = unescape .path s := by
  fun_induction unescape .path s with
  | case1 => rfl
  | case2 h l rest ih =>
    conv_lhs => unfold unescape
    simp only [if_true, ih]
  | case3 rest hrest =>
    conv_lhs => unfold unescape
    simp only [if_true]
  | case4 b rest hb ih =>
    conv_lhs => unfold unescape
    simp only [if_neg hb, ih, reduceCtorEq, and_false]

/-- An escaped path holds no question mark, so it ends where the query starts. -/
theorem question_not_mem_escape (s : Bytes) : ch '?' ∉ escape .path s := by
  have hbyte : ∀ b, ch '?' ∉ escapeByte .path b := forall_byte (by decide +kernel)
  intro h
  obtain ⟨b, -, hb⟩ := List.mem_flatMap.mp h
  exact hbyte b hb

/-! ## Queries -/

/-- `url.Values` as its pairs in the order they were added. -/
abbrev Values := List (Bytes × Bytes)

namespace Values

/-- `v[key]`. -/
def valuesOf (v : Values) (key : Bytes) : List Bytes := Multimap.valuesOf v key

def get (v : Values) (key : Bytes) : Bytes := (v.valuesOf key).headD []

def has (v : Values) (key : Bytes) : Bool := v.any (·.1 = key)

def keys (v : Values) : List Bytes := Multimap.keys v

def encode (v : Values) : Bytes :=
  join ((sortStrings v.keys).flatMap fun k =>
    (v.valuesOf k).map fun x => queryEscape k ++ str "=" ++ queryEscape x) (str "&")

end Values

/-- One `&`-separated part of a query; `none` when `ParseQuery` skips it. -/
def parsePair (part : Bytes) : Option (Bytes × Bytes) :=
  if ch ';' ∈ part then none
  else if part = [] then none
  else do
    let (key, value, _) := cut (ch '=') part
    let k ← queryUnescape key
    let v ← queryUnescape value
    some (k, v)

/-- `url.ParseQuery(query)` with its error ignored, as `URL.Query` does. -/
def parseQuery (query : Bytes) : Values := (split (ch '&') query).filterMap parsePair

/-- Whether `url.ParseQuery(query)` reports an error: a part was refused, not
    merely empty. -/
def parseQueryFails (query : Bytes) : Bool :=
  (split (ch '&') query).any fun part => part ≠ [] && (parsePair part).isNone

/-! ## URLs -/

/-- The fields of `url.URL` a server-side request carries that are read here. -/
structure URL where
  scheme : Bytes := []
  opaquePart : Bytes := []
  host : Bytes := []
  path : Bytes := []
  rawPath : Bytes := []
  rawQuery : Bytes := []
deriving DecidableEq

namespace URL

def query (u : URL) : Values := parseQuery u.rawQuery

def validEncoded (s : Bytes) : Bool :=
  s.all fun b =>
    b ∈ [ch '!', ch '$', ch '&', 39, ch '(', ch ')', ch '*', ch '+', ch ',', ch ';', ch '=', ch ':',
      ch '@', ch '[', ch ']', ch '%'] || !shouldEscape b .path

def escapedPath (u : URL) : Bytes :=
  if u.rawPath ≠ [] ∧ validEncoded u.rawPath ∧ unescape .path u.rawPath = some u.path then u.rawPath
  else if u.path = str "*" then str "*"
  else escape .path u.path

def setPath (u : URL) (p : Bytes) : Option URL := do
  let path ← unescape .path p
  some { u with path, rawPath := if p = escape .path path then [] else p }

end URL

/-- The scan of `getScheme`: where the scheme ends, `none` for the error of an
    empty scheme.  `seen` holds the scheme bytes read so far. -/
def getSchemeLoop (whole : Bytes) : Bytes → Bytes → Option (Bytes × Bytes)
  | _, [] => some ([], whole)
  | seen, b :: rest =>
    if isAlpha b then getSchemeLoop whole (seen ++ [b]) rest
    else if isDigit b ∨ b ∈ [ch '+', ch '-', ch '.'] then
      if seen = [] then some ([], whole) else getSchemeLoop whole (seen ++ [b]) rest
    else if b = ch ':' then if seen = [] then none else some (seen, rest)
    else some ([], whole)

def getScheme (rawURL : Bytes) : Option (Bytes × Bytes) := getSchemeLoop rawURL [] rawURL

def isCTL (b : UInt8) : Bool := b < 0x20 || b == 0x7F

/-- The query split of `parse`: a lone trailing `?` is `ForceQuery` and leaves no
    query. -/
def splitQuery (rest : Bytes) : Bytes × Bytes :=
  if hasSuffix rest (str "?") && rest.count (ch '?') == 1 then (rest.dropLast, [])
  else ((cut (ch '?') rest).1, (cut (ch '?') rest).2.1)

/-- Lower case of an ASCII string, enough for a scheme. -/
def lowerScheme (s : Bytes) : Bytes := s.map lowerByte

/-- `url.ParseRequestURI(rawURL)`, with `parseAuthority` for the host part. -/
def parseRequestURI (parseAuthority : Bytes → Option Bytes) (rawURL : Bytes) : Option URL :=
  if rawURL.any isCTL then none
  else if rawURL = [] then none
  else if rawURL = str "*" then some { path := str "*" }
  else do
    let (scheme, rest) ← getScheme rawURL
    let scheme := lowerScheme scheme
    let (rest, rawQuery) := splitQuery rest
    if !hasPrefix rest (str "/") then
      if scheme ≠ [] then some { scheme, opaquePart := rest, rawQuery } else none
    else if scheme ≠ [] ∧ hasPrefix rest (str "//") then
      let authority := rest.drop 2
      let host ← parseAuthority (authority.takeWhile (· ≠ ch '/'))
      URL.setPath { scheme, host, rawQuery } (authority.dropWhile (· ≠ ch '/'))
    else URL.setPath { scheme, rawQuery } rest

/-! ## What a parsed request URI can be -/

theorem unescape_eq_nil {mode : Encoding} {s : Bytes} (h : unescape mode s = some []) : s = [] := by
  cases s with
  | nil => rfl
  | cons b rest =>
    by_cases hb : b = ch '%'
    · subst hb
      match rest, h with
      | [], h => simp [unescape] at h
      | [_], h => simp [unescape] at h
      | hi :: lo :: rest, h =>
        simp only [unescape, if_true, Option.bind_eq_bind, Option.bind_eq_some_iff] at h
        obtain ⟨_, -, _, -, _, -, h⟩ := h
        cases h
    · rw [unescape_cons mode hb, Option.map_eq_some_iff] at h
      obtain ⟨_, -, h⟩ := h
      cases h

/-- What `parse` makes of the part between the scheme and the query. -/
def parseHierarchy (parseAuthority : Bytes → Option Bytes) (scheme rest rawQuery : Bytes) :
    Option URL :=
  if !hasPrefix rest (str "/") then
    if scheme ≠ [] then some { scheme, opaquePart := rest, rawQuery } else none
  else if scheme ≠ [] ∧ hasPrefix rest (str "//") then
    (parseAuthority ((rest.drop 2).takeWhile (· ≠ ch '/'))).bind fun host =>
      URL.setPath { scheme, host, rawQuery } ((rest.drop 2).dropWhile (· ≠ ch '/'))
  else URL.setPath { scheme, rawQuery } rest

section Parse

variable {parseAuthority : Bytes → Option Bytes}

theorem parseRequestURI_eq_some {rawURL : Bytes} {u : URL} (hstar : rawURL ≠ str "*") :
    parseRequestURI parseAuthority rawURL = some u ↔
      rawURL.any isCTL = false ∧ rawURL ≠ [] ∧ ∃ scheme rest, getScheme rawURL = some (scheme, rest) ∧
        parseHierarchy parseAuthority (lowerScheme scheme) (splitQuery rest).1 (splitQuery rest).2 =
          some u := by
  unfold parseRequestURI
  by_cases hctl : rawURL.any isCTL = true
  · simp [hctl]
  · by_cases hempty : rawURL = []
    · simp [hempty]
    · rw [if_neg hctl, if_neg hempty, if_neg hstar, Option.bind_eq_bind, Option.bind_eq_some_iff]
      simp only [Bool.not_eq_true] at hctl
      simp only [hctl, hempty, ne_eq, not_false_eq_true, true_and, Prod.exists]
      rfl

theorem parseRequestURI_clean {rawURL : Bytes} {u : URL}
    (h : parseRequestURI parseAuthority rawURL = some u) : rawURL.any isCTL = false := by
  unfold parseRequestURI at h
  split at h
  · cases h
  · rename_i hctl
    exact Bool.eq_false_iff.mpr hctl

theorem setPath_eq_some {u v : URL} {p : Bytes} (h : u.setPath p = some v) :
    ∃ path rawPath, v = { u with path, rawPath } := by
  unfold URL.setPath at h
  rw [Option.bind_eq_bind, Option.bind_eq_some_iff] at h
  obtain ⟨path, -, h⟩ := h
  cases h
  exact ⟨_, _, rfl⟩

theorem setPath_query {u v : URL} {p : Bytes} (h : u.setPath p = some v) (q : Bytes) :
    URL.setPath { u with rawQuery := q } p = some { v with rawQuery := q } := by
  unfold URL.setPath at h ⊢
  rw [Option.bind_eq_bind, Option.bind_eq_some_iff] at h
  obtain ⟨path, hpath, h⟩ := h
  cases h
  rw [hpath]
  rfl

theorem parseRequestURI_opaquePart {rawURL : Bytes} {u : URL}
    (h : parseRequestURI parseAuthority rawURL = some u) :
    u.opaquePart = [] ∨ u.path = [] ∧ u.rawPath = [] := by
  by_cases hstar : rawURL = str "*"
  · subst hstar
    cases h
    exact .inl rfl
  · obtain ⟨-, -, scheme, rest, -, hparse⟩ := (parseRequestURI_eq_some hstar).mp h
    unfold parseHierarchy at hparse
    split at hparse
    · split at hparse
      · cases hparse
        exact .inr ⟨rfl, rfl⟩
      · cases hparse
    · split at hparse
      · obtain ⟨host, -, hset⟩ := Option.bind_eq_some_iff.mp hparse
        obtain ⟨_, _, rfl⟩ := setPath_eq_some hset
        exact .inl rfl
      · obtain ⟨_, _, rfl⟩ := setPath_eq_some hparse
        exact .inl rfl

/-! ## Replacing the query -/

/-- The scan for a scheme stops at a question mark, so what follows one does not matter. -/
theorem getSchemeLoop_query (seen : Bytes) {front : Bytes} (hfront : ch '?' ∉ front) :
    (∃ scheme rest, ch '?' ∉ rest ∧
      ∀ whole q, getSchemeLoop whole seen (front ++ ch '?' :: q) = some (scheme, rest ++ ch '?' :: q)) ∨
    (∀ whole q, getSchemeLoop whole seen (front ++ ch '?' :: q) = some ([], whole)) ∨
    (∀ whole q, getSchemeLoop whole seen (front ++ ch '?' :: q) = none) := by
  induction front generalizing seen with
  | nil =>
    refine .inr (.inl fun whole q => ?_)
    rw [List.nil_append, getSchemeLoop, if_neg (by decide), if_neg (by decide), if_neg (by decide)]
  | cons b front ih =>
    have hrest : ch '?' ∉ front := fun h => hfront (List.mem_cons_of_mem _ h)
    simp only [List.cons_append, getSchemeLoop]
    split
    · exact ih _ hrest
    · split
      · split
        · exact .inr (.inl fun _ _ => rfl)
        · exact ih _ hrest
      · split
        · split
          · exact .inr (.inr fun _ _ => rfl)
          · exact .inl ⟨seen, front, hrest, fun _ _ => rfl⟩
        · exact .inr (.inl fun _ _ => rfl)

theorem getScheme_query {front : Bytes} (hfront : ch '?' ∉ front) :
    (∃ scheme rest, ch '?' ∉ rest ∧
      ∀ q, getScheme (front ++ ch '?' :: q) = some (scheme, rest ++ ch '?' :: q)) ∨
    ∀ q, getScheme (front ++ ch '?' :: q) = none := by
  rcases getSchemeLoop_query [] hfront with ⟨scheme, rest, hrest, h⟩ | h | h
  · exact .inl ⟨scheme, rest, hrest, fun q => h _ q⟩
  · exact .inl ⟨[], front, hfront, fun q => h _ q⟩
  · exact .inr fun q => h _ q

theorem splitQuery_append {rest : Bytes} (hrest : ch '?' ∉ rest) (q : Bytes) :
    splitQuery (rest ++ ch '?' :: q) = (rest, q) := by
  unfold splitQuery
  split
  · rename_i hlone
    rw [Bool.and_eq_true, beq_iff_eq, List.count_append, List.count_cons_self,
      List.count_eq_zero_of_not_mem hrest] at hlone
    obtain ⟨hsuffix, hcount⟩ := hlone
    -- the only question mark is the last byte
    have hq : ch '?' ∉ q := List.count_eq_zero.mp (by omega)
    cases q with
    | nil => simp
    | cons b q =>
      exfalso
      have hlast : [ch '?'] <:+ rest ++ ch '?' :: b :: q := List.isSuffixOf_iff_suffix.mp hsuffix
      have htail : b :: q <:+ rest ++ ch '?' :: b :: q := ⟨rest ++ [ch '?'], by simp⟩
      have hmem := List.suffix_of_suffix_length_le hlast htail (by simp)
      exact hq (hmem.subset List.mem_cons_self)
  · rw [cut_append hrest]

theorem parseHierarchy_query {scheme rest q₀ : Bytes} {u : URL}
    (h : parseHierarchy parseAuthority scheme rest q₀ = some u) (q : Bytes) :
    u.rawQuery = q₀ ∧ parseHierarchy parseAuthority scheme rest q = some { u with rawQuery := q } := by
  unfold parseHierarchy at h ⊢
  split at h
  · rename_i hslash
    rw [if_pos hslash]
    split at h
    · rename_i hscheme
      cases h
      rw [if_pos hscheme]
      exact ⟨rfl, rfl⟩
    · cases h
  · rename_i hslash
    rw [if_neg hslash]
    split at h
    · rename_i hauthority
      obtain ⟨host, hhost, hset⟩ := Option.bind_eq_some_iff.mp h
      rw [if_pos hauthority, hhost]
      have hquery := setPath_query hset q
      obtain ⟨_, _, rfl⟩ := setPath_eq_some hset
      exact ⟨rfl, hquery⟩
    · rename_i hauthority
      rw [if_neg hauthority]
      have hquery := setPath_query h q
      obtain ⟨_, _, rfl⟩ := setPath_eq_some h
      exact ⟨rfl, hquery⟩

/-- A request line with another query parses to the same URL with that query. -/
theorem parseRequestURI_query {front q₀ : Bytes} {u : URL} (hfront : ch '?' ∉ front)
    (h : parseRequestURI parseAuthority (front ++ ch '?' :: q₀) = some u) {q : Bytes}
    (hq : q.any isCTL = false) :
    u.rawQuery = q₀ ∧
      parseRequestURI parseAuthority (front ++ ch '?' :: q) = some { u with rawQuery := q } := by
  have hstar : ∀ q, front ++ ch '?' :: q ≠ str "*" := by
    intro q hstar
    have hmem : ch '?' ∈ str "*" := by simp [← hstar]
    exact absurd hmem (by decide)
  obtain ⟨hctl, -, scheme, rest₀, hscheme, hparse⟩ := (parseRequestURI_eq_some (hstar _)).mp h
  rcases getScheme_query hfront with ⟨scheme', rest, hrest, hget⟩ | hnone
  · rw [hget] at hscheme
    cases hscheme
    rw [splitQuery_append hrest] at hparse
    obtain ⟨hraw, hquery⟩ := parseHierarchy_query hparse q
    refine ⟨hraw, (parseRequestURI_eq_some (hstar _)).mpr ⟨?_, by simp, scheme, _, hget q, ?_⟩⟩
    · rw [List.any_append, List.any_cons, Bool.or_eq_false_iff, Bool.or_eq_false_iff] at hctl ⊢
      exact ⟨hctl.1, hctl.2.1, hq⟩
    · rw [splitQuery_append hrest]
      exact hquery
  · rw [hnone] at hscheme
    cases hscheme

theorem getSchemeLoop_suffix {whole seen s scheme rest : Bytes} (hs : s <:+ whole)
    (h : getSchemeLoop whole seen s = some (scheme, rest)) : rest <:+ whole := by
  induction s generalizing seen with
  | nil =>
    cases h
    exact List.suffix_refl _
  | cons b s ih =>
    have htail : s <:+ whole := (List.suffix_cons b s).trans hs
    rw [getSchemeLoop] at h
    split at h
    · exact ih htail h
    · split at h
      · split at h
        · cases h
          exact List.suffix_refl _
        · exact ih htail h
      · split at h
        · split at h
          · cases h
          · cases h
            exact htail
        · cases h
          exact List.suffix_refl _

theorem parseRequestURI_front {rawURL : Bytes} {u : URL}
    (h : parseRequestURI parseAuthority rawURL = some u) (hquery : u.rawQuery ≠ []) :
    ∃ front, ch '?' ∉ front ∧ rawURL = front ++ ch '?' :: u.rawQuery := by
  by_cases hmark : ch '?' ∈ rawURL
  · obtain ⟨front, q, rfl, hfront⟩ := List.eq_append_cons_of_mem hmark
    obtain ⟨hraw, -⟩ := parseRequestURI_query (q := []) hfront h rfl
    exact ⟨front, hfront, by rw [hraw]⟩
  · exfalso
    by_cases hstar : rawURL = str "*"
    · subst hstar
      cases h
      exact hquery rfl
    · obtain ⟨-, -, scheme, rest, hscheme, hparse⟩ := (parseRequestURI_eq_some hstar).mp h
      have hrest : ch '?' ∉ rest := fun hmem =>
        hmark ((getSchemeLoop_suffix (List.suffix_refl _) hscheme).subset hmem)
      obtain ⟨hraw, -⟩ := parseHierarchy_query hparse []
      apply hquery
      rw [hraw, splitQuery]
      split
      · rfl
      · rw [cut_of_not_mem hrest]

end Parse

end Go
