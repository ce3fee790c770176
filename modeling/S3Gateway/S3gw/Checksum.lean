import S3Gateway.Go.Base64
import S3Gateway.S3gw.Headers

/-! # Checksum algorithms

Package `checksum` and the gateway's policy on which algorithms it offers. -/

namespace S3Gateway.S3gw

open Go S3err

inductive Algorithm where
  | crc32 | crc32c | crc64nvme | sha1 | sha256 | sha512 | md5 | xxhash64 | xxhash3 | xxhash128
deriving DecidableEq

namespace Algorithm

def all : List Algorithm :=
  [crc32, crc32c, crc64nvme, sha1, sha256, sha512, md5, xxhash64, xxhash3, xxhash128]

def name : Algorithm → Bytes
  | crc32 => str "CRC32"
  | crc32c => str "CRC32C"
  | crc64nvme => str "CRC64NVME"
  | sha1 => str "SHA1"
  | sha256 => str "SHA256"
  | sha512 => str "SHA512"
  | md5 => str "MD5"
  | xxhash64 => str "XXHASH64"
  | xxhash3 => str "XXHASH3"
  | xxhash128 => str "XXHASH128"

def computable : Algorithm → Bool
  | xxhash64 | xxhash3 | xxhash128 => false
  | _ => true

end Algorithm

def headerPrefix : Bytes := str "x-amz-checksum-"

/-- `checksum.Values`: the values present, in algorithm order. -/
abbrev ChecksumValues := List (Algorithm × Bytes)

def ChecksumValues.algorithm (v : ChecksumValues) : Option Algorithm :=
  Algorithm.all.find? fun a => (v.lookup a).getD [] ≠ []

inductive ChecksumSupport where
  | refused
  | forwarded
  | verified
deriving DecidableEq

/-- `checksumPolicy`: an algorithm is offered as verified only if it can be computed. -/
structure ChecksumPolicy where
  support : Algorithm → ChecksumSupport
  verified_computable : ∀ a, support a = .verified → a.computable = true

section Headers

variable [Unicode]

def Algorithm.header (a : Algorithm) : Bytes := headerPrefix ++ toLower a.name

/-- `checksum.Lookup(name)`. -/
def lookupAlgorithm (name : Bytes) : Option Algorithm := Algorithm.all.find? (equalFold ·.name name)

/-- `checksum.FromHeaders(h)`. -/
def checksumsFromHeaders (h : Header) : ChecksumValues :=
  Algorithm.all.filterMap fun a => if h.get a.header = [] then none else some (a, h.get a.header)

/-- The loop of `TrailerAlgorithm` over the comma-separated names; `none` is
    `ErrUnsupportedTrailer`. -/
def trailerLoop : List Bytes → Bytes → Option Bytes
  | [], alg => some alg
  | part :: rest, alg =>
    let t := toLower (trimSpace part)
    if t = [] then trailerLoop rest alg
    else
      match cutPrefix t headerPrefix with
      | none => none
      | some a =>
        if ((lookupAlgorithm a).any (·.computable)) = true ∧ alg = [] then trailerLoop rest a
        else none

/-- `checksum.TrailerAlgorithm(h)`: the algorithm named by `x-amz-trailer`, empty
    when none is declared. -/
def trailerAlgorithm (h : Header) : Option Bytes :=
  trailerLoop (split (ch ',') (h.get (str "x-amz-trailer"))) []

/-- `checksum.NewHash(name)`, and `checksum.Base64` of what was written to it; `digest` has
    the hash functions of the algorithms. -/
def newHash (digest : Algorithm → Bytes → Bytes) (name : Bytes) : Option (Bytes → Bytes) :=
  (lookupAlgorithm name).bind fun a => if a.computable then some fun data => base64Encode (digest a data) else none

theorem newHash_isSome (digest : Algorithm → Bytes → Bytes) (name : Bytes) :
    (newHash digest name).isSome = (lookupAlgorithm name).any (·.computable) := by
  unfold newHash
  cases lookupAlgorithm name with
  | none => rfl
  | some a => cases ha : a.computable <;> simp [ha]

theorem trailerLoop_computable {parts : List Bytes} {alg found : Bytes} (h : trailerLoop parts alg = some found)
    (halg : alg ≠ [] → (lookupAlgorithm alg).any (·.computable) = true) (hne : found ≠ []) :
    (lookupAlgorithm found).any (·.computable) = true := by
  induction parts generalizing alg with
  | nil =>
    cases h
    exact halg hne
  | cons part rest ih =>
    rw [trailerLoop] at h
    split at h
    · exact ih h halg
    · split at h
      · cases h
      · split at h
        · rename_i hcond
          exact ih h fun _ => hcond.1
        · cases h

theorem trailerAlgorithm_computable {h : Header} {alg : Bytes} (halg : trailerAlgorithm h = some alg)
    (hne : alg ≠ []) : (lookupAlgorithm alg).any (·.computable) = true :=
  trailerLoop_computable halg (fun habs => absurd rfl habs) hne

namespace ChecksumPolicy

variable (p : ChecksumPolicy)

/-- `support(name)`: an unknown name is refused. -/
def supportOf (name : Bytes) : ChecksumSupport :=
  match lookupAlgorithm name with
  | some a => p.support a
  | none => .refused

def knownHeader (lname : Bytes) : Bool :=
  Algorithm.all.any fun a => a.header == lname && p.support a != .refused

end ChecksumPolicy

end Headers

end S3Gateway.S3gw
