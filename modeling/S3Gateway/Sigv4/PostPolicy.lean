import Mathlib.Data.List.AList
import S3Gateway.Go.Json
import S3Gateway.Go.Utf8
import S3Gateway.Sigv4.Crypto

/-! # POST policies

`postpolicy.go`: a browser upload is authenticated by a signed policy document, whose
conditions bind the fields of the form.  Conditions are read off the document by
`parsePostPolicy` and checked both ways by `evaluatePostPolicy`. -/

namespace S3Gateway.Sigv4

open Go S3err Fallible

/-! ## The model -/

def maxPostPolicyBytes : Nat := 20 * 1024

def maxPostPolicyConditions : Nat := 100

def maxInt64 : Int := 2 ^ 63 - 1

/-- The form fields before the file, by lower-cased name. -/
abbrev Fields := AList fun _ : Bytes => Bytes

/-- `fields[name]`. -/
def Fields.value (f : Fields) (name : Bytes) : Bytes := (f.lookup name).getD []

structure PostPolicy where
  expiration : Time
  minLength : Int
  maxLength : Int

inductive ConditionOp where
  | eq
  | startsWith
deriving DecidableEq

def ConditionOp.name : ConditionOp → Bytes
  | eq => str "eq"
  | startsWith => str "starts-with"

theorem ConditionOp.name_ne_range (op : ConditionOp) : op.name ≠ str "content-length-range" := by
  cases op <;> decide

theorem ConditionOp.name_injective {op op' : ConditionOp} (h : op.name = op'.name) : op = op' := by
  cases op <;> cases op' <;> first | rfl | exact absurd h (by decide)

structure PostCondition where
  op : ConditionOp
  field : Bytes
  value : Bytes
deriving DecidableEq

/-- One element of `conditions`: its text, for messages, and the value it denotes. -/
structure RawCondition where
  text : Bytes
  value : Json

/-- The policy document as `encoding/json` decodes it. -/
structure PostDocument where
  expiration : Bytes
  conditions : List RawCondition

/-- The standard library's part in reading a policy. -/
structure PostCodec where
  /-- `json.Unmarshal(raw, &doc)`, or the text of its error -/
  unmarshal : Bytes → Except Bytes PostDocument
  /-- `base64.StdEncoding.DecodeString` -/
  base64 : Bytes → Option Bytes
  /-- `time.Parse(time.RFC3339, ..)`, or the text of its error -/
  parseRFC3339 : Bytes → Except Bytes Time
  /-- the `%q` verb -/
  quote : Bytes → Bytes

def invalidPolicyDocument (what : Bytes) : S3Error :=
  { status := 400, code := str "InvalidPolicyDocument", message := str "Invalid Policy: " ++ what }

/-- What one element of `conditions` says. -/
inductive ParsedCondition where
  | fields (conds : List PostCondition)
  | lengthRange (min max : Int)

section Parse

variable [Unicode] (codec : PostCodec)

/-- The `eq` and `starts-with` case of `parseArrayCondition`. -/
def parseFieldCondition (op : ConditionOp) (rc : RawCondition) (e₁ e₂ : Json) :
    Except S3Error ParsedCondition :=
  match e₁.decodeString.bind (cutPrefix · (str "$")) with
  | none =>
    .error (invalidPolicyDocument
      (str "condition field must reference a form field with $: " ++ rc.text))
  | some field =>
    match e₂.decodeString with
    | none => .error (invalidPolicyDocument (str "malformed condition " ++ rc.text))
    | some value => .ok (.fields [{ op, field := toLower field, value }])

/-- The `content-length-range` case of `parseArrayCondition`. -/
def parseLengthRange (rc : RawCondition) (e₁ e₂ : Json) : Except S3Error ParsedCondition :=
  let malformed := invalidPolicyDocument (str "malformed content-length-range " ++ rc.text)
  match e₁.decodeInt64, e₂.decodeInt64 with
  | some min, some max => if min < 0 ∨ max < min then .error malformed else .ok (.lengthRange min max)
  | _, _ => .error malformed

def parseArrayCondition (rc : RawCondition) : Except S3Error ParsedCondition :=
  let malformed := invalidPolicyDocument (str "malformed condition " ++ rc.text)
  match rc.value.decodeArray with
  | some [e₀, e₁, e₂] =>
    match e₀.decodeString with
    | none => .error malformed
    | some op =>
      if toLower op = str "eq" then parseFieldCondition .eq rc e₁ e₂
      else if toLower op = str "starts-with" then parseFieldCondition .startsWith rc e₁ e₂
      else if toLower op = str "content-length-range" then parseLengthRange rc e₁ e₂
      else .error (invalidPolicyDocument (str "unknown condition type " ++ codec.quote op))
  | _ => .error malformed

/-- The `switch` of `parsePostPolicy` on one element. -/
def parseCondition (rc : RawCondition) : Except S3Error ParsedCondition :=
  let malformed := invalidPolicyDocument (str "malformed condition " ++ trimSpace rc.text)
  match rc.value with
  | .object _ =>
    match rc.value.decodeStringMap with
    | none => .error malformed
    | some obj => .ok (.fields (obj.map fun (k, v) => { op := .eq, field := toLower k, value := v }))
  | .array _ => parseArrayCondition codec rc
  | _ => .error malformed

/-- The loop of `parsePostPolicy`. -/
def parseConditions : List RawCondition → PostPolicy × List PostCondition →
    Except S3Error (PostPolicy × List PostCondition)
  | [], acc => .ok acc
  | rc :: rest, (pp, conds) => do
    match ← parseCondition codec rc with
    | .fields cs => parseConditions rest (pp, conds ++ cs)
    | .lengthRange lo hi =>
      parseConditions rest
        ({ pp with minLength := max pp.minLength lo, maxLength := min pp.maxLength hi }, conds)

/-- `parsePostPolicy(raw)` once the document is decoded. -/
def parsePostDocument (doc : PostDocument) : Except S3Error (PostPolicy × List PostCondition) := do
  require (doc.expiration ≠ []) (invalidPolicyDocument (str "the 'expiration' element is required"))
  let expiration ← (codec.parseRFC3339 doc.expiration).mapError fun text =>
    invalidPolicyDocument (str "malformed 'expiration': " ++ text)
  require (doc.conditions.length ≤ maxPostPolicyConditions)
    (invalidPolicyDocument (formatNat doc.conditions.length ++ str " conditions, at most " ++
      formatNat maxPostPolicyConditions ++ str " are allowed"))
  let (pp, conds) ←
    parseConditions codec doc.conditions ({ expiration, minLength := 0, maxLength := maxInt64 }, [])
  require (pp.minLength ≤ pp.maxLength) (invalidPolicyDocument (str "empty content-length-range"))
  .ok (pp, conds)

def parsePostPolicy (raw : Bytes) : Except S3Error (PostPolicy × List PostCondition) := do
  let doc ← (codec.unmarshal raw).mapError fun text =>
    invalidPolicyDocument (str "malformed JSON: " ++ text)
  parsePostDocument codec doc

end Parse

section Evaluate

variable (codec : PostCodec)

def invalidAccordingToPolicy (what : Bytes) : S3Error :=
  { status := 403, code := str "AccessDenied", message := str "Invalid according to Policy: " ++ what }

/-- Whether a condition holds for the value of its field. -/
def PostCondition.holds (c : PostCondition) (v : Bytes) : Bool :=
  match c.op with
  | .eq => v == c.value
  | .startsWith => hasPrefix v c.value

/-- One round of the first loop of `evaluatePostPolicy`. -/
def checkCondition (fields : Fields) (c : PostCondition) : Option S3Error :=
  match fields.lookup c.field with
  | none =>
    some (invalidAccordingToPolicy (str "Policy Condition failed: " ++ codec.quote c.op.name ++
      str " on missing field " ++ codec.quote c.field))
  | some v =>
    if c.holds v then none
    else
      some (invalidAccordingToPolicy (str "Policy Condition failed: [" ++ codec.quote c.op.name ++
        str ", " ++ codec.quote (str "$" ++ c.field) ++ str ", " ++ codec.quote c.value ++ str "]"))

def uncoveredFields : List Bytes := [str "policy", str "x-amz-signature"]

/-- `evaluatePostPolicy(conds, fields)`.  Go walks the map in no fixed order, so which
    of several extra fields is named may differ. -/
def evaluatePostPolicy (conds : List PostCondition) (fields : Fields) : Option S3Error :=
  (conds.findSome? (checkCondition codec fields)).or
    ((fields.keys.find? fun name => name ∉ uncoveredFields && !conds.any (·.field = name)).map
      fun name => invalidAccordingToPolicy (str "Extra input fields: " ++ name))

end Evaluate

section Verify

variable [Unicode] (codec : PostCodec) (v : Verifier)

/-- `invalid(format, args...)` of `VerifyPost`. -/
def invalidForm (what : Bytes) : S3Error := invalidArgument what

/-- The credential scope of a form: access key, date and region. -/
structure PostScope where
  akid : Bytes
  date : Bytes
  region : Bytes

/-- The checks on the algorithm and the credential. -/
def postScope (fields : Fields) : Except S3Error PostScope := do
  require (fields.value (str "x-amz-algorithm") = sigV4Algorithm)
    (invalidForm (str "X-Amz-Algorithm only supports " ++ codec.quote sigV4Algorithm))
  match split (ch '/') (fields.value (str "x-amz-credential")) with
  | [akid, date, region, service, terminator] => do
    require (terminator = str "aws4_request") (invalidForm
      (str "Error parsing the X-Amz-Credential form field; the Credential is mal-formed"))
    require (service = str "s3") (invalidForm
      (str "Error parsing the X-Amz-Credential form field; incorrect service"))
    require (v.region = [] ∨ region = v.region) (invalidForm
      (str "Error parsing the X-Amz-Credential form field; the region '" ++ region ++
        str "' is wrong; expecting '" ++ v.region ++ str "'"))
    .ok { akid, date, region }
  | _ => .error (invalidForm
      (str "Error parsing the X-Amz-Credential form field; the Credential is mal-formed"))

def postDate (scope : PostScope) (fields : Fields) : Except S3Error Time := do
  let t ← orError (v.parseAmzDate (fields.value (str "x-amz-date")))
    (invalidForm (str "X-Amz-Date must be in the ISO8601 Long Format"))
  require (v.scopeDate t = scope.date) (invalidForm
    (str "Invalid credential date. Date is not the same as X-Amz-Date."))
  require (t ≤ v.now + maxClockSkew)
    { status := 403, code := str "AccessDenied", message := str "Request is not valid yet",
      cause := .auth .notYetValid scope.akid }
  require (v.now - t ≤ maxPresignExpires)
    { status := 403, code := str "AccessDenied", message := str "Request has expired",
      cause := .auth .expired scope.akid }
  .ok t

def policyTooLarge : S3Error := invalidForm
  (str "the policy document exceeds the maximum allowed size (" ++ formatNat maxPostPolicyBytes ++
    str " bytes)")

/-- The checks on the `policy` and `x-amz-signature` fields before any key is looked
    up. -/
def postSigned (fields : Fields) : Except S3Error Unit := do
  require (fields.value (str "policy") ≠ [])
    (invalidForm (str "Bucket POST must contain a field named 'policy'."))
  require ((fields.value (str "policy")).length ≤ maxPostPolicyBytes * 4 / 3 + 4) policyTooLarge
  require (fields.value (str "x-amz-signature") ≠ [])
    (invalidForm (str "Bucket POST must contain a field named 'x-amz-signature'."))

/-- The credential behind the form and its signing key for the scope. -/
def postKey (scope : PostScope) (fields : Fields) : Except S3Error Bytes := do
  let token := fields.value (str "x-amz-security-token")
  let cred ← lookupSecret v scope.akid token
  let _ ← (validateSessionToken v scope.akid cred.sessionToken token).elim (.ok ()) .error
  signingKey v scope.akid cred scope.date scope.region

/-- The signature a key gives the policy of a form. -/
def postSignature (key : Bytes) (fields : Fields) : Bytes :=
  hexEncode (v.crypto.hmac key (fields.value (str "policy")))

/-- The signed document, read and evaluated against the form. -/
def postConditions (scope : PostScope) (fields : Fields) : Except S3Error PostPolicy := do
  let raw ← orError (codec.base64 (fields.value (str "policy")))
    (invalidForm (str "the policy form field is not valid base64"))
  require (raw.length ≤ maxPostPolicyBytes) policyTooLarge
  let (pp, conds) ← parsePostPolicy codec raw
  require (v.now ≤ pp.expiration)
    { status := 403, code := str "AccessDenied",
      message := str "Invalid according to Policy: Policy expired.",
      cause := .auth .expired scope.akid }
  match evaluatePostPolicy codec conds fields with
  | some e => .error (e.withCause (.auth .postPolicy scope.akid))
  | none => .ok pp

def verifyPost (fields : Fields) : Except S3Error (Verified × PostPolicy) := do
  let scope ← postScope codec v fields
  let t ← postDate v scope fields
  postSigned fields
  let key ← postKey v scope fields
  require (postSignature v key fields = fields.value (str "x-amz-signature"))
    (signatureDoesNotMatch.withCause (.auth .signatureMismatch scope.akid))
  let pp ← postConditions codec v scope fields
  .ok ({ accessKeyID := scope.akid, signingKey := key,
         signature := fields.value (str "x-amz-signature"), signingTime := t,
         scope := join [scope.date, scope.region, str "s3", str "aws4_request"] (str "/"),
         region := scope.region, payloadHash := str "UNSIGNED-PAYLOAD" }, pp)

end Verify

/-! ## What a document states -/

section Spec

variable [Unicode]

/-- The element of a document states a condition: as a member of an object, or as an
    array of an operator, a field reference and a value. -/
inductive States : Json → PostCondition → Prop where
  | member {ms : List (Bytes × Json)} {obj : List (Bytes × Bytes)} {name value : Bytes}
      (hobj : (Json.object ms).decodeStringMap = some obj) (h : (name, value) ∈ obj) :
      States (.object ms) { op := .eq, field := toLower name, value }
  | array {e₀ e₁ e₂ : Json} {name field value : Bytes} {op : ConditionOp}
      (h₀ : e₀.decodeString = some name) (hop : toLower name = op.name)
      (h₁ : e₁.decodeString = some (str "$" ++ field)) (h₂ : e₂.decodeString = some value) :
      States (.array [e₀, e₁, e₂]) { op, field := toLower field, value }

/-- The element of a document bounds the length of the file. -/
inductive StatesRange : Json → Int → Int → Prop where
  | array {e₀ e₁ e₂ : Json} {name : Bytes} {lo hi : Int} (h₀ : e₀.decodeString = some name)
      (hop : toLower name = str "content-length-range") (h₁ : e₁.decodeInt64 = some lo)
      (h₂ : e₂.decodeInt64 = some hi) (hlo : 0 ≤ lo) (hhi : lo ≤ hi) :
      StatesRange (.array [e₀, e₁, e₂]) lo hi

def Readable (v : Json) : Prop :=
  (∃ ms obj, v = .object ms ∧ (Json.object ms).decodeStringMap = some obj) ∨
    (∃ c, States v c) ∨ ∃ lo hi, StatesRange v lo hi

/-- The parsed form of an element says what the element states. -/
def ParsedCondition.Describes (v : Json) : ParsedCondition → Prop
  | .fields cs => (∀ c, c ∈ cs ↔ States v c) ∧ ∀ lo hi, ¬StatesRange v lo hi
  | .lengthRange lo hi => (∀ c, ¬States v c) ∧ ∀ lo' hi', StatesRange v lo' hi' ↔ lo' = lo ∧ hi' = hi

theorem states_array_iff {e₀ e₁ e₂ : Json} {name : Bytes} (h₀ : e₀.decodeString = some name)
    (c : PostCondition) :
    States (.array [e₀, e₁, e₂]) c ↔ toLower name = c.op.name ∧
      ∃ field, e₁.decodeString = some (str "$" ++ field) ∧ e₂.decodeString = some c.value ∧
        c.field = toLower field := by
  constructor
  · rintro (_ | ⟨h₀', hop, h₁, h₂⟩)
    obtain rfl := Option.some.inj (h₀.symm.trans h₀')
    exact ⟨hop, _, h₁, h₂, rfl⟩
  · obtain ⟨op, field, value⟩ := c
    rintro ⟨hop, field', h₁, h₂, rfl⟩
    exact .array h₀ hop h₁ h₂

theorem statesRange_array_iff {e₀ e₁ e₂ : Json} {name : Bytes} (h₀ : e₀.decodeString = some name)
    (lo hi : Int) :
    StatesRange (.array [e₀, e₁, e₂]) lo hi ↔ toLower name = str "content-length-range" ∧
      e₁.decodeInt64 = some lo ∧ e₂.decodeInt64 = some hi ∧ 0 ≤ lo ∧ lo ≤ hi := by
  constructor
  · rintro ⟨h₀', hop, h₁, h₂, hlo, hhi⟩
    obtain rfl := Option.some.inj (h₀.symm.trans h₀')
    exact ⟨hop, h₁, h₂, hlo, hhi⟩
  · rintro ⟨hop, h₁, h₂, hlo, hhi⟩
    exact .array h₀ hop h₁ h₂ hlo hhi

theorem not_readable_array {l : List Json}
    (h : ∀ e₀ e₁ e₂ name, l = [e₀, e₁, e₂] → e₀.decodeString ≠ some name) :
    ¬Readable (.array l) := by
  rintro (⟨ms, obj, hv, -⟩ | ⟨c, hc⟩ | ⟨lo, hi, hr⟩)
  · cases hv
  · cases hc with
    | array h₀ => exact h _ _ _ _ rfl h₀
  · cases hr with
    | array h₀ => exact h _ _ _ _ rfl h₀

theorem readable_array_iff {e₀ e₁ e₂ : Json} :
    Readable (.array [e₀, e₁, e₂]) ↔
      (∃ c, States (.array [e₀, e₁, e₂]) c) ∨ ∃ lo hi, StatesRange (.array [e₀, e₁, e₂]) lo hi := by
  unfold Readable
  simp

/-- How an element is parsed: into what it states, or not at all. -/
def ParsedAs (v : Json) (r : Except S3Error ParsedCondition) : Prop :=
  (∃ p, r = .ok p ∧ p.Describes v ∧ Readable v) ∨ ∃ e, r = .error e ∧ ¬Readable v

theorem parseFieldCondition_parsedAs (op : ConditionOp) {e₀ e₁ e₂ : Json} {name : Bytes}
    (h₀ : e₀.decodeString = some name) (hop : toLower name = op.name) (rc : RawCondition) :
    ParsedAs (.array [e₀, e₁, e₂]) (parseFieldCondition op rc e₁ e₂) := by
  -- an element with the name of a condition states no range
  have hnoRange : ∀ lo hi, ¬StatesRange (.array [e₀, e₁, e₂]) lo hi := by
    intro lo hi hr
    obtain ⟨hrange, -⟩ := (statesRange_array_iff h₀ lo hi).mp hr
    exact op.name_ne_range (hop.symm.trans hrange)
  have hreadable : Readable (.array [e₀, e₁, e₂]) ↔ ∃ field value,
      e₁.decodeString = some (str "$" ++ field) ∧ e₂.decodeString = some value := by
    rw [readable_array_iff]
    constructor
    · rintro (⟨c, hc⟩ | ⟨lo, hi, hr⟩)
      · obtain ⟨-, field, h₁, h₂, -⟩ := (states_array_iff h₀ c).mp hc
        exact ⟨field, c.value, h₁, h₂⟩
      · exact absurd hr (hnoRange lo hi)
    · rintro ⟨field, value, h₁, h₂⟩
      exact .inl ⟨_, .array h₀ hop h₁ h₂⟩
  -- the two refusals are of elements that state nothing, for want of a field and of a value
  unfold parseFieldCondition
  split
  · rename_i hfield
    refine .inr ⟨_, rfl, fun hr => ?_⟩
    obtain ⟨field, value, h₁, -⟩ := hreadable.mp hr
    rw [h₁, Option.bind_some, cutPrefix_append] at hfield
    cases hfield
  · rename_i field hfield
    obtain ⟨whole, h₁, hcut⟩ := Option.bind_eq_some_iff.mp hfield
    obtain rfl := cutPrefix_eq_some.mp hcut
    split
    · rename_i hvalue
      refine .inr ⟨_, rfl, fun hr => ?_⟩
      obtain ⟨_, value, -, h₂⟩ := hreadable.mp hr
      rw [hvalue] at h₂
      cases h₂
    · rename_i value h₂
      refine .inl ⟨_, rfl, ⟨fun c => ?_, hnoRange⟩, hreadable.mpr ⟨field, value, h₁, h₂⟩⟩
      rw [List.mem_singleton, states_array_iff h₀ c]
      constructor
      · rintro rfl
        exact ⟨hop, field, h₁, h₂, rfl⟩
      · obtain ⟨op', field', value'⟩ := c
        rintro ⟨hop', field'', h₁', h₂', rfl⟩
        obtain rfl : op' = op := ConditionOp.name_injective (hop'.symm.trans hop)
        obtain rfl : field'' = field :=
          List.append_cancel_left (Option.some.inj (h₁'.symm.trans h₁))
        obtain rfl : value' = value := Option.some.inj (h₂'.symm.trans h₂)
        rfl

theorem parseLengthRange_parsedAs {e₀ e₁ e₂ : Json} {name : Bytes}
    (h₀ : e₀.decodeString = some name) (hop : toLower name = str "content-length-range")
    (rc : RawCondition) : ParsedAs (.array [e₀, e₁, e₂]) (parseLengthRange rc e₁ e₂) := by
  -- an element with the name of a range states no condition
  have hnoField : ∀ c, ¬States (.array [e₀, e₁, e₂]) c := by
    intro c hc
    obtain ⟨hname, -⟩ := (states_array_iff h₀ c).mp hc
    exact c.op.name_ne_range (hname.symm.trans hop)
  have hreadable : Readable (.array [e₀, e₁, e₂]) ↔ ∃ lo hi,
      e₁.decodeInt64 = some lo ∧ e₂.decodeInt64 = some hi ∧ 0 ≤ lo ∧ lo ≤ hi := by
    rw [readable_array_iff]
    constructor
    · rintro (⟨c, hc⟩ | ⟨lo, hi, hr⟩)
      · exact absurd hc (hnoField c)
      · exact ⟨lo, hi, ((statesRange_array_iff h₀ lo hi).mp hr).2⟩
    · rintro ⟨lo, hi, h⟩
      exact .inr ⟨lo, hi, (statesRange_array_iff h₀ lo hi).mpr ⟨hop, h⟩⟩
  -- refused are bounds that are no numbers or out of order, and such an element is not readable
  unfold parseLengthRange
  dsimp only
  split
  · rename_i lo hi h₁ h₂
    split
    · rename_i hbad
      refine .inr ⟨_, rfl, fun hr => ?_⟩
      obtain ⟨lo', hi', h₁', h₂', hlo, hhi⟩ := hreadable.mp hr
      rw [h₁] at h₁'
      rw [h₂] at h₂'
      cases h₁'
      cases h₂'
      omega
    · rename_i hgood
      have hbounds : 0 ≤ lo ∧ lo ≤ hi := by omega
      refine .inl ⟨_, rfl, ⟨hnoField, fun lo' hi' => ?_⟩, hreadable.mpr ⟨lo, hi, h₁, h₂, hbounds⟩⟩
      rw [statesRange_array_iff h₀]
      constructor
      · rintro ⟨-, h₁', h₂', -⟩
        exact ⟨Option.some.inj (h₁'.symm.trans h₁), Option.some.inj (h₂'.symm.trans h₂)⟩
      · rintro ⟨rfl, rfl⟩
        exact ⟨hop, h₁, h₂, hbounds⟩
  · rename_i hnone
    refine .inr ⟨_, rfl, fun hr => ?_⟩
    obtain ⟨lo, hi, h₁, h₂, -⟩ := hreadable.mp hr
    exact hnone lo hi h₁ h₂

theorem parseArrayCondition_parsedAs (codec : PostCodec) (text : Bytes) (l : List Json) :
    ParsedAs (.array l) (parseArrayCondition codec ⟨text, .array l⟩) := by
  -- one case per name the parser knows; any other triple is not readable
  unfold parseArrayCondition
  dsimp only
  split
  · rename_i e₀ e₁ e₂ hl
    obtain rfl : l = [e₀, e₁, e₂] := Option.some.inj hl
    split
    · rename_i hname
      refine .inr ⟨_, rfl, not_readable_array ?_⟩
      rintro _ _ _ name ⟨⟩ hsome
      rw [hname] at hsome
      cases hsome
    · rename_i name hname
      split
      · rename_i hop
        exact parseFieldCondition_parsedAs .eq hname hop _
      · rename_i hneq
        split
        · rename_i hop
          exact parseFieldCondition_parsedAs .startsWith hname hop _
        · rename_i hnstarts
          split
          · rename_i hop
            exact parseLengthRange_parsedAs hname hop _
          · rename_i hnrange
            refine .inr ⟨_, rfl, fun hr => ?_⟩
            rcases readable_array_iff.mp hr with ⟨c, hc⟩ | ⟨lo, hi, hrange⟩
            · obtain ⟨hop, -⟩ := (states_array_iff hname c).mp hc
              cases hcop : c.op with
              | eq => exact hneq (by rw [hop, hcop]; rfl)
              | startsWith => exact hnstarts (by rw [hop, hcop]; rfl)
            · exact hnrange ((statesRange_array_iff hname lo hi).mp hrange).1
  · rename_i hl
    refine .inr ⟨_, rfl, not_readable_array ?_⟩
    rintro e₀ e₁ e₂ name rfl -
    exact hl _ _ _ rfl

theorem parseObject_parsedAs {ms : List (Bytes × Json)} {e : S3Error} :
    ParsedAs (.object ms)
      (match (Json.object ms).decodeStringMap with
        | none => .error e
        | some obj =>
          .ok (.fields (obj.map fun (k, v) => { op := .eq, field := toLower k, value := v }))) := by
  have hnoRange : ∀ lo hi, ¬StatesRange (.object ms) lo hi := by
    rintro lo hi ⟨⟩
  split
  · rename_i hnone
    refine .inr ⟨_, rfl, ?_⟩
    rintro (⟨_, obj, hv, hobj⟩ | ⟨c, hc⟩ | ⟨lo, hi, hr⟩)
    · cases hv
      rw [hnone] at hobj
      cases hobj
    · cases hc with
      | member hobj =>
        rw [hnone] at hobj
        cases hobj
    · exact hnoRange lo hi hr
  · rename_i obj hobj
    refine .inl ⟨_, rfl, ⟨fun c => ?_, hnoRange⟩, .inl ⟨ms, obj, rfl, hobj⟩⟩
    rw [List.mem_map]
    constructor
    · rintro ⟨⟨name, value⟩, h, rfl⟩
      exact .member hobj h
    · rintro (⟨hobj', h⟩ | _)
      obtain rfl := Option.some.inj (hobj.symm.trans hobj')
      exact ⟨_, h, rfl⟩

/-- An element is parsed into what it states, and refused exactly when it states
    nothing readable. -/
theorem parseCondition_parsedAs (codec : PostCodec) (rc : RawCondition) :
    ParsedAs rc.value (parseCondition codec rc) := by
  have hother : ∀ {v : Json} {e : S3Error}, (∀ ms, v ≠ .object ms) → (∀ l, v ≠ .array l) →
      ParsedAs v (.error e) := by
    intro v e hobject harray
    refine .inr ⟨e, rfl, ?_⟩
    rintro (⟨ms, _, hv, -⟩ | ⟨c, hc⟩ | ⟨lo, hi, hr⟩)
    · exact hobject ms hv
    · cases hc with
      | member => exact hobject _ rfl
      | array => exact harray _ rfl
    · cases hr with
      | array => exact harray _ rfl
  obtain ⟨text, value⟩ := rc
  cases value with
  | object ms => exact parseObject_parsedAs
  | array l => exact parseArrayCondition_parsedAs codec text l
  | null | bool | number | string =>
    refine hother ?_ ?_ <;> rintro _ ⟨⟩

/-! ## The document as a whole -/

def Permits (conditions : List RawCondition) (n : Int) : Prop :=
  ∀ rc ∈ conditions, ∀ lo hi, StatesRange rc.value lo hi → lo ≤ n ∧ n ≤ hi

def StatedIn (conditions : List RawCondition) (c : PostCondition) : Prop :=
  ∃ rc ∈ conditions, States rc.value c

theorem permits_cons {rc : RawCondition} {rest : List RawCondition} {n : Int} :
    Permits (rc :: rest) n ↔
      (∀ lo hi, StatesRange rc.value lo hi → lo ≤ n ∧ n ≤ hi) ∧ Permits rest n :=
  List.forall_mem_cons

theorem statedIn_cons {rc : RawCondition} {rest : List RawCondition} {c : PostCondition} :
    StatedIn (rc :: rest) c ↔ States rc.value c ∨ StatedIn rest c :=
  List.exists_mem_cons_iff ..

/-- The loop over readable elements takes `pp` and `conds` to `pp'` and `conds'`: what the elements
    state is added, and the range is narrowed to what they permit. -/
structure Collects (conditions : List RawCondition) (pp : PostPolicy) (conds : List PostCondition)
    (pp' : PostPolicy) (conds' : List PostCondition) : Prop where
  readable : ∀ rc ∈ conditions, Readable rc.value
  expiration : pp'.expiration = pp.expiration
  stated : ∀ c, c ∈ conds' ↔ c ∈ conds ∨ StatedIn conditions c
  range : ∀ n, (pp'.minLength ≤ n ∧ n ≤ pp'.maxLength) ↔
    (pp.minLength ≤ n ∧ n ≤ pp.maxLength) ∧ Permits conditions n

namespace Collects

variable {rc : RawCondition} {rest : List RawCondition} {pp pp' : PostPolicy} {conds conds' : List PostCondition}

theorem nil (pp : PostPolicy) (conds : List PostCondition) : Collects [] pp conds pp conds where
  readable := by simp
  expiration := rfl
  stated := by simp [StatedIn]
  range := by simp [Permits]

theorem fields {cs : List PostCondition} (hreadable : Readable rc.value)
    (hdescribes : (ParsedCondition.fields cs).Describes rc.value)
    (h : Collects rest pp (conds ++ cs) pp' conds') : Collects (rc :: rest) pp conds pp' conds' := by
  obtain ⟨hfields, hnoRange⟩ := hdescribes
  refine ⟨List.forall_mem_cons.mpr ⟨hreadable, h.readable⟩, h.expiration, fun c => ?_, fun n => ?_⟩
  · rw [h.stated c, List.mem_append, hfields c, or_assoc, statedIn_cons]
  · rw [h.range n, permits_cons]
    simp [hnoRange]

theorem lengthRange {lo hi : Int} (hreadable : Readable rc.value)
    (hdescribes : (ParsedCondition.lengthRange lo hi).Describes rc.value)
    (h : Collects rest { pp with minLength := max pp.minLength lo, maxLength := min pp.maxLength hi } conds
      pp' conds') : Collects (rc :: rest) pp conds pp' conds' := by
  obtain ⟨hnoField, hiff⟩ := hdescribes
  refine ⟨List.forall_mem_cons.mpr ⟨hreadable, h.readable⟩, h.expiration, fun c => ?_, fun n => ?_⟩
  · rw [h.stated c, statedIn_cons]
    simp [hnoField]
  · -- the head states this one range, so it permits the lengths inside it
    have hhead : (∀ lo' hi', StatesRange rc.value lo' hi' → lo' ≤ n ∧ n ≤ hi') ↔ lo ≤ n ∧ n ≤ hi := by
      simp only [hiff]
      constructor
      · exact fun h => h lo hi ⟨rfl, rfl⟩
      · rintro h lo' hi' ⟨rfl, rfl⟩
        exact h
    rw [h.range n, permits_cons, hhead, max_le_iff, le_min_iff]
    constructor
    · rintro ⟨⟨⟨h₁, h₂⟩, h₃, h₄⟩, h₅⟩
      exact ⟨⟨h₁, h₃⟩, ⟨h₂, h₄⟩, h₅⟩
    · rintro ⟨⟨h₁, h₃⟩, ⟨h₂, h₄⟩, h₅⟩
      exact ⟨⟨⟨h₁, h₂⟩, h₃, h₄⟩, h₅⟩

end Collects

/-- The loop over the conditions: it fails on an unreadable element and otherwise
    collects what the elements state, narrowing the range as it goes. -/
theorem parseConditions_spec (codec : PostCodec) (conditions : List RawCondition) (pp : PostPolicy)
    (conds : List PostCondition) :
    (∃ pp' conds', parseConditions codec conditions (pp, conds) = .ok (pp', conds') ∧
        Collects conditions pp conds pp' conds') ∨
      ∃ e, parseConditions codec conditions (pp, conds) = .error e ∧
        ∃ rc ∈ conditions, ¬Readable rc.value := by
  -- on the elements, with what was collected before them
  induction conditions generalizing pp conds with
  | nil => exact .inl ⟨pp, conds, rfl, .nil pp conds⟩
  | cons rc rest ih =>
    rcases parseCondition_parsedAs codec rc with ⟨p, hp, hdescribes, hreadable⟩ | ⟨e, he, hunreadable⟩
    · cases p with
      | fields cs =>
        have hstep : parseConditions codec (rc :: rest) (pp, conds) =
            parseConditions codec rest (pp, conds ++ cs) := by
          simp only [parseConditions, hp, bind, Except.bind]
        rw [hstep]
        rcases ih pp (conds ++ cs) with ⟨pp', conds', h, hrest⟩ | ⟨e, h, bad, hbad, hnot⟩
        · exact .inl ⟨pp', conds', h, hrest.fields hreadable hdescribes⟩
        · exact .inr ⟨e, h, bad, List.mem_cons_of_mem _ hbad, hnot⟩
      | lengthRange lo hi =>
        have hstep : parseConditions codec (rc :: rest) (pp, conds) =
            parseConditions codec rest
              ({ pp with minLength := max pp.minLength lo, maxLength := min pp.maxLength hi },
                conds) := by
          simp only [parseConditions, hp, bind, Except.bind]
        rw [hstep]
        rcases ih _ conds with ⟨pp', conds', h, hrest⟩ | ⟨e, h, bad, hbad, hnot⟩
        · exact .inl ⟨pp', conds', h, hrest.lengthRange hreadable hdescribes⟩
        · exact .inr ⟨e, h, bad, List.mem_cons_of_mem _ hbad, hnot⟩
    · refine .inr ⟨e, ?_, rc, List.mem_cons_self, hunreadable⟩
      simp only [parseConditions, he, bind, Except.bind]

/-- What a document has to be for the policy `pp` to be read off it.  The range is
    the set of lengths every `content-length-range` permits, and it is not empty. -/
structure Yields (codec : PostCodec) (doc : PostDocument) (pp : PostPolicy) : Prop where
  expiration_ne : doc.expiration ≠ []
  expiration : codec.parseRFC3339 doc.expiration = .ok pp.expiration
  count : doc.conditions.length ≤ maxPostPolicyConditions
  readable : ∀ rc ∈ doc.conditions, Readable rc.value
  range : ∀ n, (pp.minLength ≤ n ∧ n ≤ pp.maxLength) ↔
    (0 ≤ n ∧ n ≤ maxInt64) ∧ Permits doc.conditions n
  range_nonempty : pp.minLength ≤ pp.maxLength

omit [Unicode] in
theorem interval_unique {a b c d : Int} (hab : a ≤ b) (hcd : c ≤ d)
    (h : ∀ n, (a ≤ n ∧ n ≤ b) ↔ (c ≤ n ∧ n ≤ d)) : a = c ∧ b = d := by
  have ha := (h a).mp ⟨le_rfl, hab⟩
  have hb := (h b).mp ⟨hab, le_rfl⟩
  have hc := (h c).mpr ⟨le_rfl, hcd⟩
  have hd := (h d).mpr ⟨hcd, le_rfl⟩
  omega

theorem parsePostDocument_ok {codec : PostCodec} {doc : PostDocument} {pp : PostPolicy}
    {conds : List PostCondition} (h : parsePostDocument codec doc = .ok (pp, conds)) :
    Yields codec doc pp ∧ ∀ c, c ∈ conds ↔ StatedIn doc.conditions c := by
  obtain ⟨_, hne, h⟩ := bind_eq_ok.mp h
  obtain ⟨expiration, hexp, h⟩ := bind_eq_ok.mp h
  obtain ⟨_, hcount, h⟩ := bind_eq_ok.mp h
  obtain ⟨⟨pp', conds'⟩, hloop, h⟩ := bind_eq_ok.mp h
  obtain ⟨_, hrange, h⟩ := bind_eq_ok.mp h
  rw [require_eq_ok] at hne hcount hrange
  rw [mapError_eq_ok] at hexp
  cases h
  rcases parseConditions_spec codec doc.conditions
      { expiration, minLength := 0, maxLength := maxInt64 } [] with
    ⟨pp', conds', hloop', hall⟩ | ⟨e, he, -⟩
  · rw [hloop] at hloop'
    cases hloop'
    refine ⟨⟨hne, hall.expiration ▸ hexp, hcount, hall.readable, hall.range, hrange⟩, fun c => ?_⟩
    rw [hall.stated c]
    simp
  · rw [hloop] at he
    cases he

theorem parsePostDocument_of_yields {codec : PostCodec} {doc : PostDocument} {pp : PostPolicy}
    (h : Yields codec doc pp) : ∃ conds, parsePostDocument codec doc = .ok (pp, conds) := by
  rcases parseConditions_spec codec doc.conditions
      { expiration := pp.expiration, minLength := 0, maxLength := maxInt64 } [] with
    ⟨pp', conds, hloop, -, hexpiration, -, hpermits⟩ | ⟨e, -, rc, hrc, hbad⟩
  · -- the loop's range has the same members as `pp`'s, hence is nonempty and the same
    have hsame : ∀ n, (pp.minLength ≤ n ∧ n ≤ pp.maxLength) ↔
        (pp'.minLength ≤ n ∧ n ≤ pp'.maxLength) := by
      intro n
      rw [h.range n, hpermits n]
    have hrange : pp'.minLength ≤ pp'.maxLength := by
      have hmin := (hsame pp.minLength).mp ⟨le_rfl, h.range_nonempty⟩
      omega
    obtain ⟨hmin, hmax⟩ := interval_unique h.range_nonempty hrange hsame
    have hpp : pp' = pp := by
      cases pp
      cases pp'
      simp_all
    refine ⟨conds, bind_eq_ok.mpr ⟨(), require_eq_ok.mpr h.expiration_ne, ?_⟩⟩
    refine bind_eq_ok.mpr ⟨pp.expiration, mapError_eq_ok.mpr h.expiration, ?_⟩
    refine bind_eq_ok.mpr ⟨(), require_eq_ok.mpr h.count, ?_⟩
    refine bind_eq_ok.mpr ⟨(pp', conds), hloop, ?_⟩
    refine bind_eq_ok.mpr ⟨(), require_eq_ok.mpr hrange, ?_⟩
    rw [hpp]
  · exact absurd (h.readable rc hrc) hbad

end Spec

/-- The form satisfies every condition and has no field without one. -/
structure Satisfies (fields : Fields) (stated : PostCondition → Prop) : Prop where
  holds : ∀ c, stated c → ∃ v, fields.lookup c.field = some v ∧ c.holds v = true
  covered : ∀ name ∈ fields, name ∉ uncoveredFields → ∃ c, stated c ∧ c.field = name

theorem evaluatePostPolicy_eq_none_iff (codec : PostCodec) (conds : List PostCondition)
    (fields : Fields) :
    evaluatePostPolicy codec conds fields = none ↔ Satisfies fields (· ∈ conds) := by
  -- a condition passes where its field is there and its test holds
  have hcheck : ∀ c, checkCondition codec fields c = none ↔
      ∃ v, fields.lookup c.field = some v ∧ c.holds v = true := by
    intro c
    unfold checkCondition
    cases hv : fields.lookup c.field with
    | none => simp
    | some v =>
      by_cases hc : c.holds v = true
      · simp [hc]
      · simp [hc]
  unfold evaluatePostPolicy
  rw [Option.or_eq_none_iff, List.findSome?_eq_none_iff, Option.map_eq_none_iff,
    List.find?_eq_none]
  constructor
  · rintro ⟨hall, hcover⟩
    refine ⟨fun c hc => (hcheck c).mp (hall c hc), fun name hname hnot => ?_⟩
    have := hcover name (AList.mem_keys.mp hname)
    simpa [hnot] using this
  · rintro ⟨hall, hcover⟩
    refine ⟨fun c hc => (hcheck c).mpr (hall c hc), fun name hname => ?_⟩
    by_cases hnot : name ∈ uncoveredFields
    · simp [hnot]
    · obtain ⟨c, hc, rfl⟩ := hcover name (AList.mem_keys.mpr hname) hnot
      have hany : conds.any (·.field = c.field) = true := List.any_eq_true.mpr ⟨c, hc, by simp⟩
      simp [hany]

/-! ## Verification -/

section Accepted

variable [Unicode] {codec : PostCodec} {v : Verifier} {fields : Fields}

/-- A form whose credential and dates are in order and whose signature is that of its
    policy field under the signing key of the credential scope. -/
structure SignedForm (v : Verifier) (fields : Fields) (scope : PostScope) (t : Time) (key : Bytes) :
    Prop where
  algorithm : fields.value (str "x-amz-algorithm") = sigV4Algorithm
  credential : split (ch '/') (fields.value (str "x-amz-credential")) =
    [scope.akid, scope.date, scope.region, str "s3", str "aws4_request"]
  region : v.region = [] ∨ scope.region = v.region
  date : v.parseAmzDate (fields.value (str "x-amz-date")) = some t
  scopeDate : v.scopeDate t = scope.date
  notFuture : t ≤ v.now + maxClockSkew
  notExpired : v.now - t ≤ maxPresignExpires
  policy : fields.value (str "policy") ≠ []
  signed : fields.value (str "x-amz-signature") ≠ []
  signingKey : postKey v scope fields = .ok key
  signature : fields.value (str "x-amz-signature") =
    hexEncode (v.crypto.hmac key (fields.value (str "policy")))

/-- The document in the policy field yields `pp`, has not expired, and binds the form. -/
def BindsForm (codec : PostCodec) (v : Verifier) (fields : Fields) (pp : PostPolicy) : Prop :=
  ∃ raw doc, codec.base64 (fields.value (str "policy")) = some raw ∧
    raw.length ≤ maxPostPolicyBytes ∧ codec.unmarshal raw = .ok doc ∧ Yields codec doc pp ∧
    v.now ≤ pp.expiration ∧ Satisfies fields (StatedIn doc.conditions)

omit [Unicode] in
theorem postScope_ok_iff {scope : PostScope} :
    postScope codec v fields = .ok scope ↔
      fields.value (str "x-amz-algorithm") = sigV4Algorithm ∧
        split (ch '/') (fields.value (str "x-amz-credential")) =
          [scope.akid, scope.date, scope.region, str "s3", str "aws4_request"] ∧
        (v.region = [] ∨ scope.region = v.region) := by
  unfold postScope
  rw [bind_eq_ok]
  simp only [require_eq_ok, exists_const]
  refine and_congr_right fun _ => ?_
  split
  · rename_i akid date region service terminator hsplit
    obtain ⟨akid', date', region'⟩ := scope
    simp only [bind_eq_ok, require_eq_ok, exists_const, hsplit]
    constructor
    · rintro ⟨rfl, rfl, hregion, h⟩
      cases h
      exact ⟨rfl, hregion⟩
    · rintro ⟨heq, hregion⟩
      cases heq
      exact ⟨rfl, rfl, hregion, rfl⟩
  · rename_i hshape
    constructor
    · rintro ⟨⟩
    · rintro ⟨hsplit, -⟩
      exact absurd hsplit (hshape _ _ _ _ _)

omit [Unicode] in
theorem postDate_ok_iff {scope : PostScope} {t : Time} :
    postDate v scope fields = .ok t ↔
      v.parseAmzDate (fields.value (str "x-amz-date")) = some t ∧ v.scopeDate t = scope.date ∧
        t ≤ v.now + maxClockSkew ∧ v.now - t ≤ maxPresignExpires := by
  unfold postDate
  simp only [bind_eq_ok, require_eq_ok, orError_eq_ok, exists_const]
  constructor
  · rintro ⟨t', hparse, hscope, hfuture, hexpired, h⟩
    cases h
    exact ⟨hparse, hscope, hfuture, hexpired⟩
  · rintro ⟨hparse, hscope, hfuture, hexpired⟩
    exact ⟨t, hparse, hscope, hfuture, hexpired, rfl⟩

theorem postConditions_ok_iff {scope : PostScope} {pp : PostPolicy} :
    postConditions codec v scope fields = .ok pp ↔ BindsForm codec v fields pp := by
  unfold postConditions parsePostPolicy BindsForm
  simp only [bind_eq_ok, require_eq_ok, orError_eq_ok, mapError_eq_ok, exists_const]
  constructor
  · rintro ⟨raw, hraw, hsize, ⟨pp', conds⟩, ⟨doc, hdoc, hparse⟩, hexpired, h⟩
    obtain ⟨hyields, hmem⟩ := parsePostDocument_ok hparse
    split at h
    · cases h
    · rename_i heval
      cases h
      have hsat := (evaluatePostPolicy_eq_none_iff codec conds fields).mp heval
      simp only [hmem] at hsat
      exact ⟨raw, doc, hraw, hsize, hdoc, hyields, hexpired, hsat⟩
  · rintro ⟨raw, doc, hraw, hsize, hdoc, hyields, hexpired, hsat⟩
    obtain ⟨conds, hparse⟩ := parsePostDocument_of_yields hyields
    obtain ⟨-, hmem⟩ := parsePostDocument_ok hparse
    refine ⟨raw, hraw, hsize, (pp, conds), ⟨doc, hdoc, hparse⟩, hexpired, ?_⟩
    have heval : evaluatePostPolicy codec conds fields = none := by
      rw [evaluatePostPolicy_eq_none_iff]
      simpa only [hmem] using hsat
    rw [heval]

/-- `VerifyPost` accepts exactly the signed forms that their document binds, within
    the size caps. -/
theorem verifyPost_ok_iff {pp : PostPolicy} :
    (∃ verified, verifyPost codec v fields = .ok (verified, pp)) ↔
      (∃ scope t key, SignedForm v fields scope t key) ∧
        (fields.value (str "policy")).length ≤ maxPostPolicyBytes * 4 / 3 + 4 ∧
        BindsForm codec v fields pp := by
  unfold verifyPost postSigned postSignature
  simp only [bind_eq_ok, require_eq_ok, postScope_ok_iff, postDate_ok_iff, postConditions_ok_iff,
    exists_const]
  constructor
  · rintro ⟨_, scope, ⟨halg, hcred, hregion⟩, t, ⟨hdate, hscope, hfuture, hexpired⟩,
      ⟨hpolicy, hlength, hsigned⟩, key, hkey, hsig, pp', hbinds, h⟩
    cases h
    exact ⟨⟨scope, t, key, halg, hcred, hregion, hdate, hscope, hfuture, hexpired, hpolicy, hsigned,
      hkey, hsig.symm⟩, hlength, hbinds⟩
  · rintro ⟨⟨scope, t, key, hform⟩, hlength, hbinds⟩
    exact ⟨_, scope, ⟨hform.algorithm, hform.credential, hform.region⟩, t,
      ⟨hform.date, hform.scopeDate, hform.notFuture, hform.notExpired⟩,
      ⟨hform.policy, hlength, hform.signed⟩, key, hform.signingKey, hform.signature.symm, pp, hbinds, rfl⟩

end Accepted

end S3Gateway.Sigv4
