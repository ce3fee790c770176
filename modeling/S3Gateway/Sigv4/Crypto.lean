import S3Gateway.Go.Date
import S3Gateway.S3err.Error
import S3Gateway.Library.Fallible

/-! # Keys and credentials

The cryptographic functions stay open, and so does where signing keys come from:
from the cache, from the secret or from the store's own derivation.  What is modelled
is which credential a request is checked against, and which payload hashes stand for a body
in chunks. -/

namespace S3Gateway.Sigv4

open Go S3err Fallible

def streamingSHA256 : Bytes := str "STREAMING-AWS4-HMAC-SHA256-PAYLOAD"
def streamingUnsignedT : Bytes := str "STREAMING-UNSIGNED-PAYLOAD-TRAILER"
def streamingSHA256T : Bytes := str "STREAMING-AWS4-HMAC-SHA256-PAYLOAD-TRAILER"

def isStreaming (payloadHash : Bytes) : Bool :=
  payloadHash == streamingSHA256 || payloadHash == streamingSHA256T ||
    payloadHash == streamingUnsignedT

structure Crypto where
  sha256 : Bytes → Bytes
  hmac : Bytes → Bytes → Bytes

def hexDigitLower (n : Nat) : UInt8 :=
  if n < 10 then ch '0' + n.toUInt8 else ch 'a' + (n - 10).toUInt8

/-- `hex.EncodeToString(b)`. -/
def hexEncode (b : Bytes) : Bytes :=
  b.flatMap fun x => [hexDigitLower (x.toNat / 16), hexDigitLower (x.toNat % 16)]

theorem length_hexEncode (b : Bytes) : (hexEncode b).length = 2 * b.length := by
  induction b with
  | nil => rfl
  | cons x b ih =>
    rw [hexEncode, List.flatMap_cons, List.length_append, ← hexEncode, ih, List.length_cons]
    simp only [List.length_cons, List.length_nil]
    omega

theorem mem_hexEncode {b : Bytes} {y : UInt8} (hy : y ∈ hexEncode b) :
    ∃ d < 16, y = hexDigitLower d := by
  obtain ⟨x, -, hx⟩ := List.mem_flatMap.mp hy
  have hlt := x.toNat_lt
  rcases List.mem_cons.mp hx with rfl | hx
  · exact ⟨_, by omega, rfl⟩
  · exact ⟨_, by omega, List.mem_singleton.mp hx⟩

def signingKeyFromDateKey (c : Crypto) (dateKey region : Bytes) : Bytes :=
  c.hmac (c.hmac (c.hmac dateKey region) (str "s3")) (str "aws4_request")

def deriveSigningKey (c : Crypto) (secret date region : Bytes) : Bytes :=
  signingKeyFromDateKey c (c.hmac (str "AWS4" ++ secret) date) region

/-- `Credential`; of its signing-key function only whether there is one is kept. -/
structure Credential where
  secretAccessKey : Bytes
  hasSigningKey : Bool
  secretVersion : Bytes
  sessionToken : Bytes

/-- How a `SecretLookup` or a signing-key derivation can fail. -/
inductive LookupError where
  | unknownKey
  | invalidToken
  | other
deriving DecidableEq

def sigV4Algorithm : Bytes := str "AWS4-HMAC-SHA256"

def maxClockSkew : Int := 15 * minute

def maxPresignExpires : Int := 7 * 24 * hour

/-- `Verifier`, at the instant of one verification and with the lookup it is given. -/
structure Verifier where
  region : Bytes
  now : Time
  crypto : Crypto
  lookup : Bytes → Bytes → Except LookupError Credential
  /-- `signingKey(akid, cred, date, region)` before its errors are mapped -/
  deriveKey : Bytes → Credential → Bytes → Bytes → Except LookupError Bytes
  /-- `time.Parse(amzDateFormat, ..)` -/
  parseAmzDate : Bytes → Option Time
  /-- `t.Format("20060102")` -/
  scopeDate : Time → Bytes

/-- `Verified`; the signed header names are kept where they are read. -/
structure Verified where
  accessKeyID : Bytes
  signingKey : Bytes
  signature : Bytes
  signingTime : Time
  scope : Bytes
  region : Bytes
  payloadHash : Bytes
deriving DecidableEq

def invalidTokenError : S3Error :=
  { status := 400, code := str "InvalidToken",
    message := str "The provided token is malformed or otherwise invalid." }

def lookupSecret (v : Verifier) (accessKeyID sessionToken : Bytes) : Except S3Error Credential :=
  match v.lookup accessKeyID sessionToken with
  | .error .unknownKey => .error (invalidAccessKeyID.withCause (.auth .unknownKey accessKeyID))
  | .error .invalidToken => .error (invalidTokenError.withCause (.auth .invalidToken accessKeyID))
  | .error .other => .error (internalError .other (str "key lookup failed"))
  | .ok cred =>
    -- either a secret or a signing key, and a signing key with its version
    if (!cred.hasSigningKey) == (cred.secretAccessKey == []) ||
        (cred.hasSigningKey && cred.secretVersion == []) then
      .error (internalError .other (str "key lookup failed"))
    else .ok cred

def validateSessionToken (v : Verifier) (akid expected presented : Bytes) : Option S3Error :=
  if expected = [] ∧ presented = [] then none
  else if v.crypto.sha256 expected = v.crypto.sha256 presented then none
  else some (invalidTokenError.withCause (.auth .invalidToken akid))

def signingKey (v : Verifier) (akid : Bytes) (cred : Credential) (date region : Bytes) :
    Except S3Error Bytes :=
  match v.deriveKey akid cred date region with
  | .ok key => .ok key
  | .error .unknownKey => .error (invalidAccessKeyID.withCause (.auth .unknownKey akid))
  | .error _ => .error (internalError .other (str "signing key derivation failed"))

end S3Gateway.Sigv4
