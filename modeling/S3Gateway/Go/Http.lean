import S3Gateway.Go.Strconv
import S3Gateway.Go.Url
import S3Gateway.Go.Utf8

/-! # Requests and headers as `net/http` hands them over -/

namespace Go

/-- `validHeaderFieldByte`: the token characters of a field name. -/
def isTokenByte (b : UInt8) : Bool :=
  isAlnum b ||
    b ∈ [ch '!', ch '#', ch '$', ch '%', ch '&', 39, ch '*', ch '+', ch '-', ch '.', ch '^', ch '_',
      96, ch '|', ch '~']

/-- Upper case after the start or a hyphen, lower case elsewhere. -/
def titleBytes : Bool → Bytes → Bytes
  | _, [] => []
  | upper, b :: rest =>
    let b' :=
      if upper && (ch 'a' ≤ b && b ≤ ch 'z') then b - 32
      else if !upper && (ch 'A' ≤ b && b ≤ ch 'Z') then b + 32
      else b
    b' :: titleBytes (b' == ch '-') rest

/-- `http.CanonicalHeaderKey(name)`: a name that is not a token stays as it is. -/
def canonicalHeaderKey (name : Bytes) : Bytes :=
  if name.all isTokenByte then titleBytes true name else name

/-- `http.Header` as its lines in order, each under the key the map holds it at. -/
abbrev Header := List (Bytes × Bytes)

namespace Header

/-- `h.Values(name)`. -/
def valuesOf (h : Header) (name : Bytes) : List Bytes :=
  (h.filter (·.1 = canonicalHeaderKey name)).map (·.2)

def get (h : Header) (name : Bytes) : Bytes := (h.valuesOf name).headD []

def keys (h : Header) : List Bytes := (h.map (·.1)).dedup

def set (h : Header) (name value : Bytes) : Header :=
  h.filter (·.1 ≠ canonicalHeaderKey name) ++ [(canonicalHeaderKey name, value)]

/-- `h[http.CanonicalHeaderKey(name)] = values`. -/
def assign (h : Header) (name : Bytes) (values : List Bytes) : Header :=
  h.filter (·.1 ≠ canonicalHeaderKey name) ++ values.map (canonicalHeaderKey name, ·)

theorem valuesOf_eq (h : Header) (name : Bytes) :
    h.valuesOf name = Multimap.valuesOf h (canonicalHeaderKey name) := rfl

theorem mem_keys_iff {h : Header} {key : Bytes} : key ∈ h.keys ↔ Multimap.valuesOf h key ≠ [] :=
  Multimap.mem_keys_iff

theorem lines_assign (h : Header) (name : Bytes) (values : List Bytes) (key : Bytes) :
    Multimap.valuesOf (h.assign name values) key =
      if key = canonicalHeaderKey name then values else Multimap.valuesOf h key := by
  rw [assign, Multimap.valuesOf_append, Multimap.valuesOf_map_pair]
  unfold Multimap.valuesOf
  rw [List.filter_filter]
  by_cases hkey : key = canonicalHeaderKey name
  · -- the lines under the key were removed before the new ones were added
    have hnone : (h.filter fun line => decide (line.1 = key) && decide (line.1 ≠ canonicalHeaderKey name)) = [] := by
      rw [List.filter_eq_nil_iff]
      intro line _
      simp [hkey]
    rw [hnone, if_pos hkey, if_pos hkey.symm]
    rfl
  · have hsame : (h.filter fun line => decide (line.1 = key) && decide (line.1 ≠ canonicalHeaderKey name)) =
        h.filter fun line => decide (line.1 = key) := by
      apply List.filter_congr
      intro line _
      by_cases hline : line.1 = key
      · simp [hline, hkey]
      · simp [hline]
    rw [hsame, if_neg hkey, if_neg (Ne.symm hkey), List.append_nil]

theorem get_set (h : Header) (name value other : Bytes) :
    (h.set name value).get other =
      if canonicalHeaderKey other = canonicalHeaderKey name then value else h.get other := by
  have hset : h.set name value = h.assign name [value] := rfl
  rw [get, hset, valuesOf_eq, lines_assign, get, valuesOf_eq]
  split <;> rfl

theorem mem_keys_assign {h : Header} {name : Bytes} {values : List Bytes} (hvalues : values ≠ [])
    {key : Bytes} : key ∈ (h.assign name values).keys ↔ key = canonicalHeaderKey name ∨ key ∈ h.keys := by
  rw [mem_keys_iff, mem_keys_iff, lines_assign]
  by_cases hkey : key = canonicalHeaderKey name
  · simp [hkey, hvalues]
  · simp [hkey]

end Header

/-! ## Names without capitals -/

theorem lowerByte_eq_self {b : UInt8} (h : b < 65 ∨ 90 < b) : lowerByte b = b := by
  unfold lowerByte
  rw [if_neg]
  rw [Bool.and_eq_true, decide_eq_true_eq, decide_eq_true_eq]
  rintro ⟨hlo, hhi⟩
  rcases h with h | h
  · exact absurd h (UInt8.not_lt.mpr hlo)
  · exact absurd h (UInt8.not_lt.mpr hhi)

theorem map_lowerByte_titleBytes (upper : Bool) (s : Bytes) :
    (titleBytes upper s).map lowerByte = s.map lowerByte := by
  induction s generalizing upper with
  | nil => rfl
  | cons b rest ih =>
    have hbyte : ∀ upper : Bool, lowerByte
        (if upper && (ch 'a' ≤ b && b ≤ ch 'z') then b - 32
        else if !upper && (ch 'A' ≤ b && b ≤ ch 'Z') then b + 32 else b) = lowerByte b := by
      revert b
      exact forall_byte (by decide +kernel)
    simp only [titleBytes, List.map_cons, ih, hbyte]

theorem map_lowerByte_canonicalHeaderKey {name : Bytes} (h : NoCapital name) :
    (canonicalHeaderKey name).map lowerByte = name := by
  have hself : name.map lowerByte = name := by
    have hid : name.map lowerByte = name.map id :=
      List.map_congr_left fun b hb => lowerByte_eq_self (h b hb)
    rw [hid, List.map_id]
  unfold canonicalHeaderKey
  split
  · rw [map_lowerByte_titleBytes, hself]
  · exact hself

theorem toLower_canonicalHeaderKey [Unicode] (name : Bytes) :
    toLower (canonicalHeaderKey name) = toLower name := by
  unfold canonicalHeaderKey
  split
  · rename_i htoken
    have hascii : ∀ b : UInt8, isTokenByte b = true → b < 0x80 := forall_byte (by decide +kernel)
    have hname : ∀ b ∈ name, b < 0x80 := fun b hb => hascii b (List.all_eq_true.mp htoken b hb)
    have hlower : ∀ b : UInt8, lowerByte b < 0x80 ↔ b < 0x80 := forall_byte (by decide +kernel)
    have htitle : ∀ b ∈ titleBytes true name, b < 0x80 := by
      intro b hb
      have hmem := List.mem_map_of_mem (f := lowerByte) hb
      rw [map_lowerByte_titleBytes] at hmem
      obtain ⟨c, hc, hsame⟩ := List.mem_map.mp hmem
      rw [← hlower, ← hsame, hlower]
      exact hname c hc
    rw [toLower_ascii hname, toLower_ascii htitle, map_lowerByte_titleBytes]
  · rfl

theorem canonicalHeaderKey_inj {a b : Bytes} (ha : NoCapital a) (hb : NoCapital b)
    (h : canonicalHeaderKey a = canonicalHeaderKey b) : a = b := by
  have hlower := congrArg (List.map lowerByte) h
  rw [map_lowerByte_canonicalHeaderKey ha, map_lowerByte_canonicalHeaderKey hb] at hlower
  exact hlower

/-! ## Addresses and requests -/

/-- `net.SplitHostPort(hostport)`; `none` is any of its errors. -/
def splitHostPort (hostport : Bytes) : Option (Bytes × Bytes) :=
  if ch ':' ∉ hostport then none
  else
    let port := (hostport.reverse.takeWhile (· ≠ ch ':')).reverse
    -- the index of the last colon
    let i := hostport.length - 1 - port.length
    if hostport.head? = some (ch '[') then
      let close := hostport.idxOf (ch ']')
      if close + 1 ≠ i then none
      else if ch '[' ∈ hostport.drop 1 ∨ ch ']' ∈ hostport.drop (close + 1) then none
      else some ((hostport.take close).drop 1, port)
    else
      let host := hostport.take i
      if ch ':' ∈ host ∨ ch '[' ∈ hostport ∨ ch ']' ∈ hostport then none else some (host, port)

/-- `netip.ParseAddrPort(s)`, the address alone: brackets go with IPv6 and only with
    it. -/
def parseAddrPort (s : Bytes) : Option Addr :=
  if ch ':' ∉ s then none
  else
    let port := (s.reverse.takeWhile (· ≠ ch ':')).reverse
    let ip := s.take (s.length - 1 - port.length)
    if ip = [] ∨ port = [] ∨ !((parseDigits 10 0 port).any (· < 65536)) then none
    else if ip.head? = some (ch '[') then
      if ip.length < 2 ∨ ip.getLast? ≠ some (ch ']') then none
      else
        match parseAddr ((ip.drop 1).dropLast) with
        | some (.v6 bits zone) => some (.v6 bits zone)
        | _ => none
    else
      match parseAddr ip with
      | some (.v4 bits) => some (.v4 bits)
      | _ => none

/-- The fields of `http.Request` that are read; the body is modelled where it is
    consumed. -/
structure Request where
  method : Bytes
  requestURI : Bytes
  url : URL
  host : Bytes
  header : Header
  contentLength : Int
  remoteAddr : Bytes
deriving DecidableEq

/-- What `net/http` has read off a connection holds no newline: lines end at one. -/
structure Request.Received (r : Request) : Prop where
  method : ch '\n' ∉ r.method
  host : ch '\n' ∉ r.host
  urlHost : ch '\n' ∉ r.url.host
  header : ∀ line ∈ r.header, ch '\n' ∉ line.1 ∧ ch '\n' ∉ line.2

/-- A request as the server of `net/http` builds it: the URL is that of the request line,
    the `Host` line is taken out of the header, and of `Content-Length` there is at most one
    line, of digits, without which no length is known. -/
structure Request.Served (parseAuthority : Bytes → Option Bytes) (r : Request) : Prop
    extends r.Received where
  parsed : parseRequestURI parseAuthority r.requestURI = some r.url
  hostRemoved : r.header.valuesOf (str "Host") = []
  lengthLine : (r.header.valuesOf (str "Content-Length") = [] ∧ r.contentLength ≤ 0) ∨
    ∃ v, r.header.valuesOf (str "Content-Length") = [v] ∧ ∀ b ∈ v, isDigit b = true

end Go
