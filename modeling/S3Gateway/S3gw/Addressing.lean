import S3Gateway.Go.Http
import S3Gateway.Go.Utf8

/-! # Addressing

`addressing.go`, with `splitPath` and `unescapeKey` of `handler.go`: which bucket and
key a request points at, in path style or under a virtual host. -/

namespace S3Gateway.S3gw

open Go

/-- `unescapeKey(rawKey)`: each segment on its own, so that an escaped slash stays
    inside its segment. -/
def unescapeKey (rawKey : Bytes) : Option Bytes :=
  ((split (ch '/') rawKey).mapM pathUnescape).map (join · (str "/"))

def splitPath (escapedPath : Bytes) : Option (Bytes × Bytes) := do
  let (rawBucket, rawKey, _) := cut (ch '/') (trimPrefix escapedPath (str "/"))
  let bucket ← pathUnescape rawBucket
  let key ← unescapeKey rawKey
  some (bucket, key)

structure Target where
  bucket : Bytes
  key : Bytes
  vhost : Bool := false
deriving DecidableEq

section

variable [Unicode]

/-- `g.SetVirtualHostSuffix(suffix)`: the suffix the gateway keeps. -/
def virtualHostSuffix (suffix : Bytes) : Bytes :=
  let host := ((splitHostPort suffix).map (·.1)).getD suffix
  let lower := toLower (trimSuffix host (str "."))
  if lower ≠ [] ∧ !hasPrefix lower (str ".") then str "." ++ lower else lower

/-- `g.virtualHostBucket(hostport)`; `none` for a path-style request. -/
def virtualHostBucket (vhostSuffix hostport : Bytes) : Option Bytes :=
  if vhostSuffix = [] then none
  else
    let host := ((splitHostPort hostport).map (·.1)).getD hostport
    match cutSuffix (toLower host) vhostSuffix with
    | none => none
    | some label => if label = [] ∨ ch '.' ∈ label then none else some label

/-- The bucket and key of an escaped path, in the addressing style of the host. -/
def targetOfPath (vhostSuffix host escapedPath : Bytes) : Option Target :=
  match virtualHostBucket vhostSuffix host with
  | some bucket =>
    (unescapeKey (trimPrefix escapedPath (str "/"))).map fun key => { bucket, key, vhost := true }
  | none => (splitPath escapedPath).map fun (bucket, key) => { bucket, key }

def requestTarget (vhostSuffix : Bytes) (r : Request) : Option Target :=
  targetOfPath vhostSuffix r.host r.url.escapedPath

end

end S3Gateway.S3gw
