import S3Gateway.Go.Url

/-! # `url.Parse`

The whole of a parsed URL: with the authority taken apart, the fragment, and the two marks
that tell a bare `?` and a missing host from their absence. -/

namespace Go

/-! ## Authorities -/

/-- What stands before and after the last `sep`. -/
def cutLast (sep : UInt8) (s : Bytes) : Option (Bytes × Bytes) :=
  let (after, before, found) := cut sep s.reverse
  if found then some (before.reverse, after.reverse) else none

/-- `shouldEscape(b, encodeHost)`. -/
def hostShouldEscape (b : UInt8) : Bool :=
  !(isAlnum b || b ∈ [ch '-', ch '_', ch '.', ch '~', ch '!', ch '$', ch '&', 39, ch '(', ch ')', ch '*', ch '+',
    ch ',', ch ';', ch '=', ch ':', ch '[', ch ']', ch '<', ch '>', ch '"'])

/-- `unescape(s, encodeHost)`, or `encodeZone`.  A host is not escaped where it need not be,
    and a zone not where it must not be. -/
def unescapeHost (zone : Bool) : Bytes → Option Bytes
  | [] => some []
  | b :: rest =>
    if b = ch '%' then
      match rest with
      | h :: l :: rest => do
        let hi ← hexVal h
        let lo ← hexVal l
        let v := (hi * 16 + lo).toUInt8
        let percent := h = ch '2' ∧ l = ch '5'
        if ¬percent ∧ (if zone then v ≠ ch ' ' ∧ hostShouldEscape v else hi < 8) then none
        else
          let out ← unescapeHost zone rest
          some (v :: out)
      | _ => none
    else if b < 0x80 ∧ hostShouldEscape b then none
    else do
      let out ← unescapeHost zone rest
      some (b :: out)

def validOptionalPort : Bytes → Bool
  | [] => true
  | b :: digits => b == ch ':' && digits.all isDigit

/-- The position of the zone of an IPv6 address, `strings.Index(hostname, "%25")`. -/
def zoneIndex (hostname : Bytes) : Option Nat :=
  (List.range hostname.length).find? fun i => hasPrefix (hostname.drop i) (str "%25")

/-- The IP literal of `parseHost`, after its opening bracket. -/
def parseIPLiteral (s : Bytes) : Option Bytes := do
  let (hostname, colonPort) ← cutLast (ch ']') s
  if !validOptionalPort colonPort then none
  else
    let unescaped ←
      match zoneIndex hostname with
      | none => unescapeHost false hostname
      | some i => do
        let host ← unescapeHost false (hostname.take i)
        let zone ← unescapeHost true (hostname.drop i)
        some (host ++ zone)
    match parseAddr unescaped with
    | some (.v6 _ _) => some (str "[" ++ unescaped ++ str "]" ++ colonPort)
    | _ => none

/-- `parseHost(host)`: an IP literal, or a name, each with an optional port. -/
def parseHost (host : Bytes) : Option Bytes :=
  if ch '[' ∈ host then
    match host with
    | [] => none
    | b :: rest => if b = ch '[' ∧ ch '[' ∉ rest then parseIPLiteral rest else none
  else
    let (_, port, found) := cut (ch ':') host
    if found && !port.all isDigit then none else unescapeHost false host

structure Userinfo where
  username : Bytes
  password : Option Bytes
deriving DecidableEq

def validUserinfo (s : Bytes) : Bool :=
  s.all fun b => isAlnum b || b ∈ [ch '-', ch '.', ch '_', ch ':', ch '~', ch '!', ch '$', ch '&', 39, ch '(', ch ')',
    ch '*', ch '+', ch ',', ch ';', ch '=', ch '%', ch '@']

/-- `parseAuthority(authority)`.  The `encodeUserPassword` mode unescapes like a path. -/
def parseAuthority (authority : Bytes) : Option (Option Userinfo × Bytes) :=
  match cutLast (ch '@') authority with
  | none => (parseHost authority).map (none, ·)
  | some (userinfo, host) => do
    let host ← parseHost host
    if !validUserinfo userinfo then none
    else
      let (username, password, found) := cut (ch ':') userinfo
      let username ← unescape .path username
      let password ← unescape .path password
      some (some { username, password := if found then some password else none }, host)

/-! ## Parsing -/

/-- `url.URL`. -/
structure FullURL extends URL where
  user : Option Userinfo := none
  omitHost : Bool := false
  forceQuery : Bool := false
  fragment : Bytes := []
  rawFragment : Bytes := []
deriving DecidableEq

/-- `parse(rawURL, false)`. -/
def parseReference (rawURL : Bytes) : Option FullURL :=
  if rawURL.any isCTL then none
  else if rawURL = str "*" then some { path := str "*" }
  else do
    let (scheme, rest) ← getScheme rawURL
    let scheme := lowerScheme scheme
    let forceQuery := hasSuffix rest (str "?") && rest.count (ch '?') == 1
    let (rest, rawQuery) := splitQuery rest
    if !hasPrefix rest (str "/") ∧ scheme ≠ [] then some { scheme, opaquePart := rest, rawQuery, forceQuery }
    -- a relative reference must not look like a scheme
    else if !hasPrefix rest (str "/") ∧ ch ':' ∈ (cut (ch '/') rest).1 then none
    else if (scheme ≠ [] ∨ !hasPrefix rest (str "///")) ∧ hasPrefix rest (str "//") then
      let authority := rest.drop 2
      let (user, host) ← parseAuthority (authority.takeWhile (· ≠ ch '/'))
      let u ← URL.setPath { scheme, host, rawQuery } (authority.dropWhile (· ≠ ch '/'))
      some { toURL := u, user, forceQuery }
    else
      let u ← URL.setPath { scheme, rawQuery } rest
      some { toURL := u, forceQuery, omitHost := scheme ≠ [] && hasPrefix rest (str "/") }

/-- `shouldEscape(b, encodeFragment)`. -/
def fragmentShouldEscape (b : UInt8) : Bool :=
  !(isAlnum b || b ∈ [ch '-', ch '_', ch '.', ch '~', ch '$', ch '&', ch '+', ch ',', ch '/', ch ':', ch ';', ch '=',
    ch '?', ch '@', ch '!', ch '(', ch ')', ch '*'])

def FullURL.setFragment (u : FullURL) (f : Bytes) : Option FullURL := do
  let fragment ← unescape .path f
  let escaped := fragment.flatMap fun b => if fragmentShouldEscape b then percentByte b else [b]
  some { u with fragment, rawFragment := if f = escaped then [] else f }

/-- `url.Parse(rawURL)`. -/
def parseURL (rawURL : Bytes) : Option FullURL := do
  let (front, fragment, _) := cut (ch '#') rawURL
  let u ← parseReference front
  if fragment = [] then some u else u.setFragment fragment

def URL.splitHostPort (hostPort : Bytes) : Bytes × Bytes :=
  let (host, port) :=
    match cutLast (ch ':') hostPort with
    | some (host, port) => if port.all isDigit then (host, port) else (hostPort, [])
    | none => (hostPort, [])
  if hasPrefix host (str "[") && hasSuffix host (str "]") then (host.tail.dropLast, port) else (host, port)

def FullURL.hostname (u : FullURL) : Bytes := (URL.splitHostPort u.host).1

def FullURL.port (u : FullURL) : Bytes := (URL.splitHostPort u.host).2

example : (parseURL (str "HTTP://u:p@[::1]:80/a%2fb?#f")) =
    some { scheme := str "http", host := str "[::1]:80", path := str "/a/b", rawPath := str "/a%2fb",
           user := some ⟨str "u", some (str "p")⟩, forceQuery := true, fragment := str "f" } := by
  decide +kernel

end Go
