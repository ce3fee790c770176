import S3Gateway.Go.Base64
import S3Gateway.Go.Date
import S3Gateway.S3gw.Auth

/-! # Upload forms

`postobject.go` up to `VerifyPost`: the fields before the file, the ones exempt from
the policy removed, the key substituted and the bucket of the URL added.  A form that
passes is bound by the document its signature covers, field by field. -/

namespace S3Gateway.S3gw

open Go S3err Fallible
open Sigv4 (Fields PostPolicy)

/-! ## The form -/

def maxPostFieldBytes : Nat := 32 * 1024

def maxPostFields : Nat := 64

/-- What the multipart reader comes upon: a part, with what reading it up to the limit
    gives, or an error, by its text. -/
inductive FormEvent where
  | part (formName fileName : Bytes) (content : Except Bytes Bytes)
  | failed (err : Bytes)

/-- The form: what the multipart reader yields before the end of the body, unless
    there is no reader to be had. -/
abbrev Form := Except Bytes (List FormEvent)

def malformedForm (err : Bytes) : S3Error :=
  invalidArgument (str "malformed multipart form: " ++ err)

section Reading

variable [Unicode]

/-- The loop of `readPostForm`: the fields before the file, and the file's name. -/
def readParts : List FormEvent → Fields → Except S3Error (Fields × Bytes)
  | [], _ => .error (invalidArgument (str "Bucket POST must contain a field named 'file'."))
  | .failed err :: _, _ => .error (malformedForm err)
  | .part formName fileName content :: rest, fields =>
    let name := toLower formName
    if name = [] then readParts rest fields
    else if name = str "file" then .ok (fields, fileName)
    else if maxPostFields ≤ fields.entries.length then
      .error (invalidArgument (str "too many form fields"))
    else
      match content with
      | .error err => .error (malformedForm err)
      | .ok v =>
        if maxPostFieldBytes < v.length then
          .error (invalidArgument (str "form field " ++ name ++ str " is too large"))
        else readParts rest (fields.insert name v)

def readPostForm (form : Form) : Except S3Error (Fields × Bytes) := do
  let events ← form.mapError malformedForm
  readParts events ∅

end Reading

/-- `delete(fields, k)` for every listed key. -/
def eraseAll (names : List Bytes) (fields : Fields) : Fields := names.foldl (fun f n => f.erase n) fields

/-- The names of the fields that are exempt from the policy and not forwarded. -/
def ignoredNames (fields : Fields) : List Bytes := fields.keys.filter (hasPrefix · (str "x-ignore-"))

/-- The part of `handlePostObject` that prepares the fields the policy is evaluated
    against: the key as substituted and the bucket of the URL. -/
def postForm [Unicode] (form : Form) (bucket : Bytes) : Except S3Error (Fields × Bytes) := do
  let (fields, filename) ← readPostForm form
  let fields := eraseAll (ignoredNames fields) fields
  let keyField := fields.value (str "key")
  require (keyField ≠ []) (invalidArgument (str "Bucket POST must contain a field named 'key'."))
  let key := replaceAll keyField (str "$\x7bfilename\x7d") filename
  require (key ≠ []) (invalidArgument (str "The key must not be empty."))
  .ok ((fields.insert (str "key") key).insert (str "bucket") bucket, key)

/-! ## What the policy is evaluated against -/

theorem lookup_eraseAll (names : List Bytes) (fields : Fields) (name : Bytes) :
    (eraseAll names fields).lookup name = if name ∈ names then none else fields.lookup name := by
  induction names generalizing fields with
  | nil => rfl
  | cons n rest ih =>
    show (eraseAll rest (fields.erase n)).lookup name = _
    rw [ih]
    by_cases hn : name = n
    · subst hn
      simp
    · simp [hn, AList.lookup_erase_ne hn]

theorem lookup_eraseIgnored (fields : Fields) (name : Bytes) :
    (eraseAll (ignoredNames fields) fields).lookup name =
      if hasPrefix name (str "x-ignore-") then none else fields.lookup name := by
  rw [lookup_eraseAll]
  by_cases hname : hasPrefix name (str "x-ignore-")
  · rw [if_pos hname]
    split
    · rfl
    · rename_i hnot
      -- an exempt name that is not listed is not a field
      refine AList.lookup_eq_none.mpr fun hmem => hnot ?_
      exact List.mem_filter.mpr ⟨AList.mem_keys.mp hmem, hname⟩
  · rw [if_neg hname, if_neg]
    exact fun h => hname (List.mem_filter.mp h).2

def usedValue (submitted : Fields) (bucket key name : Bytes) : Option Bytes :=
  if name = str "bucket" then some bucket
  else if name = str "key" then some key
  else if hasPrefix name (str "x-ignore-") then none
  else submitted.lookup name

theorem postForm_eq_ok [Unicode] {form : Form} {bucket filename key : Bytes} {submitted fields : Fields}
    (hread : readPostForm form = .ok (submitted, filename))
    (h : postForm form bucket = .ok (fields, key)) :
    key = replaceAll (submitted.value (str "key")) (str "$\x7bfilename\x7d") filename ∧
      ∀ name, fields.lookup name = usedValue submitted bucket key name := by
  obtain ⟨_, hread', h⟩ := bind_eq_ok.mp h
  rw [hread] at hread'
  cases hread'
  obtain ⟨_, -, h⟩ := bind_eq_ok.mp h
  obtain ⟨_, -, h⟩ := bind_eq_ok.mp h
  cases h
  have hkey : (eraseAll (ignoredNames submitted) submitted).value (str "key") =
      submitted.value (str "key") := by
    unfold Sigv4.Fields.value
    rw [lookup_eraseIgnored, if_neg (by decide +kernel)]
  refine ⟨by rw [hkey], fun name => ?_⟩
  unfold usedValue
  by_cases hbucket : name = str "bucket"
  · subst hbucket
    rw [if_pos rfl, AList.lookup_insert]
  rw [if_neg hbucket, AList.lookup_insert_ne hbucket]
  by_cases hname : name = str "key"
  · subst hname
    rw [if_pos rfl, AList.lookup_insert]
  rw [if_neg hname, AList.lookup_insert_ne hname, lookup_eraseIgnored]

def LowerNames (fields : Fields) : Prop := ∀ name ∈ fields, NoCapital name

theorem LowerNames.insert {fields : Fields} (h : LowerNames fields) {name value : Bytes}
    (hname : NoCapital name) : LowerNames (fields.insert name value) := by
  intro n hn
  rcases (AList.mem_insert _).mp hn with rfl | hn
  · exact hname
  · exact h n hn

theorem LowerNames.eraseAll {fields : Fields} (h : LowerNames fields) (names : List Bytes) :
    LowerNames (eraseAll names fields) := by
  induction names generalizing fields with
  | nil => exact h
  | cons n rest ih =>
    exact ih fun name hname => h name (AList.mem_erase.mp hname).2

theorem lowerNames_readParts [Unicode] {events : List FormEvent} {fields fields' : Fields}
    {filename : Bytes} (h : readParts events fields = .ok (fields', filename))
    (hfields : LowerNames fields) : LowerNames fields' := by
  induction events generalizing fields with
  | nil => cases h
  | cons event rest ih =>
    cases event with
    | failed err => cases h
    | part formName fileName content =>
      unfold readParts at h
      dsimp only at h
      split at h
      · exact ih h hfields
      · split at h
        · cases h
          exact hfields
        · split at h
          · cases h
          · split at h
            · cases h
            · split at h
              · cases h
              · exact ih h (hfields.insert (noCapital_toLower formName))

theorem lowerNames_postForm [Unicode] {form : Form} {bucket key : Bytes} {fields : Fields}
    (h : postForm form bucket = .ok (fields, key)) : LowerNames fields ∧ key ≠ [] := by
  obtain ⟨⟨submitted, filename⟩, hread, h⟩ := bind_eq_ok.mp h
  obtain ⟨_, -, h⟩ := bind_eq_ok.mp h
  obtain ⟨_, hkey, h⟩ := bind_eq_ok.mp h
  cases h
  obtain ⟨events, -, hparts⟩ := bind_eq_ok.mp hread
  have hsubmitted : LowerNames submitted :=
    lowerNames_readParts hparts fun name hname => absurd hname (AList.notMem_empty name)
  refine ⟨?_, require_eq_ok.mp hkey⟩
  refine LowerNames.insert (LowerNames.insert (hsubmitted.eraseAll _) ?_) ?_
  · unfold NoCapital
    decide +kernel
  · unfold NoCapital
    decide +kernel

open Sigv4 (PostCodec PostDocument Verifier SignedForm BindsForm verifyPost maxPostPolicyBytes)

/-- A form gets past `VerifyPost` exactly when it is signed and the signed document,
    within the caps on its size and on the number of its conditions, binds every value
    the upload uses; the length range returned is what all its ranges permit. -/
theorem postForm_accepted_iff [Unicode] (codec : PostCodec) (v : Verifier) (form : Form)
    (bucket filename key : Bytes) (submitted fields : Fields) (pp : PostPolicy)
    (hread : readPostForm form = .ok (submitted, filename))
    (hform : postForm form bucket = .ok (fields, key)) :
    key = replaceAll (submitted.value (str "key")) (str "$\x7bfilename\x7d") filename ∧
      (∀ name, fields.lookup name = usedValue submitted bucket key name) ∧
      ((∃ verified, verifyPost codec v fields = .ok (verified, pp)) ↔
        (∃ scope t signingKey, SignedForm v fields scope t signingKey) ∧
          (fields.value (str "policy")).length ≤ maxPostPolicyBytes * 4 / 3 + 4 ∧
          BindsForm codec v fields pp) := by
  obtain ⟨hkey, hused⟩ := postForm_eq_ok hread hform
  exact ⟨hkey, hused, Sigv4.verifyPost_ok_iff⟩

/-! A form for the key `a` in the bucket `b`, under a document that repeats one of its conditions. -/

def objectCondition (members : List (Bytes × Bytes)) : Sigv4.RawCondition where
  text := str "\x7b" ++ join (members.map fun (k, v) => marshalString k ++ str ":" ++ marshalString v) (str ",") ++
    str "\x7d"
  value := .object (members.map fun (k, v) => (k, .string v))

def sampleConditions : List Sigv4.RawCondition := [
  objectCondition [
    (str "bucket", str "b"), (str "key", str "a"), (str "x-amz-algorithm", Sigv4.sigV4Algorithm),
    (str "X-Amz-Credential", str "k/20260101/r/s3/aws4_request"), (str "x-amz-date", str "20260101T000000Z")],
  ⟨str "[\"content-length-range\",5,10]",
    .array [.string (str "content-length-range"), .number (str "5"), .number (str "10")]⟩]

/-- A document with `n` conditions more than it needs. -/
def repeatedDocument (n : Nat) : PostDocument where
  expiration := str "2026-01-02T00:00:00Z"
  conditions := sampleConditions ++ List.replicate n (objectCondition [(str "bucket", str "b")])

def repeatedText (n : Nat) : Bytes :=
  str "\x7b\"expiration\":" ++ marshalString (repeatedDocument n).expiration ++ str ",\"conditions\":[" ++
    join ((repeatedDocument n).conditions.map (·.text)) (str ",") ++ str "]\x7d"

def sampleNow : Time := (parseAmzDate (str "20260101T000000Z")).getD 0

def repeatedCodec (n : Nat) : PostCodec where
  unmarshal raw := (decodesOnly (repeatedText n) (repeatedDocument n) raw).elim (.error (str "invalid character")) .ok
  base64 := base64Decode
  parseRFC3339 s :=
    (decodesOnly (str "2026-01-02T00:00:00Z") (sampleNow + day) s).elim (.error (str "cannot parse")) .ok
  quote := id

def sampleForm (n : Nat) : Form := .ok [
  .part (str "Key") [] (.ok (str "$\x7bfilename\x7d")),
  .part (str "x-amz-algorithm") [] (.ok Sigv4.sigV4Algorithm),
  .part (str "x-amz-credential") [] (.ok (str "k/20260101/r/s3/aws4_request")),
  .part (str "x-amz-date") [] (.ok (str "20260101T000000Z")),
  .part (str "x-ignore-me") [] (.ok (str "1")),
  .part (str "policy") [] (.ok (base64Encode (repeatedText n))),
  .part (str "x-amz-signature") [] (.ok (str "00")),
  .part (str "file") (str "a") (.ok [])]

/-- A verifier at the time of the form, with functions of one value. -/
def sampleVerifier : Verifier where
  region := []
  now := sampleNow
  crypto := ⟨fun _ => [], fun _ _ => [0]⟩
  lookup _ _ := .ok ⟨str "secret", false, [], []⟩
  deriveKey _ _ _ _ := .ok []
  parseAmzDate := parseAmzDate
  scopeDate := formatScopeDate

def sampleFields [Unicode] (n : Nat) : Fields :=
  match postForm (sampleForm n) (str "b") with
  | .ok (fields, _) => fields
  | .error _ => ∅

theorem sampleFields_signed : let _ := asciiTables
    SignedForm sampleVerifier (sampleFields 99) ⟨str "k", str "20260101", str "r"⟩ sampleNow [] := by
  intro _
  -- all at once, so that the form is read once
  have hfields : (sampleFields 99).value (str "x-amz-algorithm") = Sigv4.sigV4Algorithm ∧
      (sampleFields 99).value (str "x-amz-credential") = str "k/20260101/r/s3/aws4_request" ∧
      (sampleFields 99).value (str "x-amz-date") = str "20260101T000000Z" ∧
      (sampleFields 99).value (str "x-amz-security-token") = [] ∧
      (sampleFields 99).value (str "policy") ≠ [] ∧
      (sampleFields 99).value (str "x-amz-signature") = str "00" := by decide +kernel
  obtain ⟨halgorithm, hcredential, hdate, htoken, hpolicy, hsignature⟩ := hfields
  constructor
  case algorithm => exact halgorithm
  case credential =>
    rw [hcredential]
    decide +kernel
  case region => exact .inl rfl
  case date =>
    rw [hdate]
    decide +kernel
  case scopeDate => decide +kernel
  case notFuture => decide +kernel
  case notExpired => decide +kernel
  case policy => exact hpolicy
  case signed =>
    rw [hsignature]
    decide
  case signingKey =>
    unfold Sigv4.postKey
    rw [htoken]
    rfl
  case signature =>
    rw [hsignature]
    rfl

theorem repeatedDocument_satisfied : let _ := asciiTables
    (∀ rc ∈ (repeatedDocument 99).conditions, Sigv4.Readable rc.value) ∧
      Sigv4.Satisfies (sampleFields 99) (Sigv4.StatedIn (repeatedDocument 99).conditions) ∧
      ∀ len, 5 ≤ len ∧ len ≤ 10 → Sigv4.Permits (repeatedDocument 99).conditions len := by
  intro _
  -- the parser is run, and what it collected is what the document states
  have hloop : (Sigv4.parseConditions (repeatedCodec 99) (repeatedDocument 99).conditions
      ({ expiration := 0, minLength := 0, maxLength := Sigv4.maxInt64 }, [])).toOption.any (fun p =>
        p.1.minLength == 5 && p.1.maxLength == 10 &&
          (Sigv4.evaluatePostPolicy (repeatedCodec 99) p.2 (sampleFields 99)).isNone) = true := by
    decide +kernel
  rcases Sigv4.parseConditions_spec (repeatedCodec 99) (repeatedDocument 99).conditions
      { expiration := 0, minLength := 0, maxLength := Sigv4.maxInt64 } [] with
    ⟨pp, conds, hok, hcollects⟩ | ⟨e, he, -⟩
  · rw [hok] at hloop
    simp only [Except.toOption, Option.any_some, Bool.and_eq_true, beq_iff_eq, Option.isNone_iff_eq_none] at hloop
    obtain ⟨⟨hmin, hmax⟩, heval⟩ := hloop
    have hstated : (· ∈ conds) = Sigv4.StatedIn (repeatedDocument 99).conditions := by
      funext c
      simp [hcollects.stated c]
    refine ⟨hcollects.readable, ?_, fun len hlen => ?_⟩
    · rw [← hstated]
      exact (Sigv4.evaluatePostPolicy_eq_none_iff _ _ _).mp heval
    · rw [← hmin, ← hmax] at hlen
      exact ((hcollects.range len).mp hlen).2
  · rw [he] at hloop
    cases hloop

/-- Repeating a condition that holds gets the form refused, once there are more than a hundred. -/
theorem repeated_conditions_refused : let _ := asciiTables
    (repeatedCodec 99).base64 ((sampleFields 99).value (str "policy")) = some (repeatedText 99) ∧
      (repeatedText 99).length ≤ maxPostPolicyBytes ∧
      (repeatedCodec 99).unmarshal (repeatedText 99) = .ok (repeatedDocument 99) ∧
      (∃ scope t key, SignedForm sampleVerifier (sampleFields 99) scope t key) ∧
      (∀ rc ∈ (repeatedDocument 99).conditions, Sigv4.Readable rc.value) ∧
      Sigv4.Satisfies (sampleFields 99) (Sigv4.StatedIn (repeatedDocument 99).conditions) ∧
      (∀ len, 5 ≤ len ∧ len ≤ 10 → Sigv4.Permits (repeatedDocument 99).conditions len) ∧
      ¬∃ verified pp, verifyPost (repeatedCodec 99) sampleVerifier (sampleFields 99) = .ok (verified, pp) := by
  intro _
  have hdoc : (repeatedCodec 99).unmarshal (repeatedText 99) = .ok (repeatedDocument 99) := by
    simp [repeatedCodec, decodesOnly_self]
  obtain ⟨hreadable, hsatisfied, hpermits⟩ := repeatedDocument_satisfied
  refine ⟨by decide +kernel, by decide +kernel, hdoc, ⟨_, _, _, sampleFields_signed⟩, hreadable, hsatisfied, hpermits, ?_⟩
  rintro ⟨verified, pp, h⟩
  obtain ⟨-, -, raw, doc, -, -, hread, hyields, -⟩ := Sigv4.verifyPost_ok_iff.mp ⟨verified, h⟩
  simp only [repeatedCodec, decodesOnly] at hread
  split at hread
  · cases hread
    exact absurd hyields.count (by decide)
  · cases hread

/-- Without the repetitions it is accepted. -/
theorem sampleForm_accepted : let _ := asciiTables
    ∃ fields key verified pp, postForm (sampleForm 0) (str "b") = .ok (fields, key) ∧
      verifyPost (repeatedCodec 0) sampleVerifier fields = .ok (verified, pp) ∧ pp.minLength = 5 ∧ pp.maxLength = 10 ∧
      (∃ scope t signingKey, SignedForm sampleVerifier fields scope t signingKey) ∧
      BindsForm (repeatedCodec 0) sampleVerifier fields pp := by
  intro _
  have hrun : (postForm (sampleForm 0) (str "b")).toOption.any (fun form =>
      (verifyPost (repeatedCodec 0) sampleVerifier form.1).toOption.any fun result =>
        result.2.minLength == 5 && result.2.maxLength == 10) = true := by decide +kernel
  cases hform : postForm (sampleForm 0) (str "b") with
  | error e =>
    rw [hform] at hrun
    cases hrun
  | ok form =>
    rw [hform, Except.toOption, Option.any_some] at hrun
    cases hverify : verifyPost (repeatedCodec 0) sampleVerifier form.1 with
    | error e =>
      rw [hverify] at hrun
      cases hrun
    | ok result =>
      rw [hverify, Except.toOption, Option.any_some, Bool.and_eq_true, beq_iff_eq, beq_iff_eq] at hrun
      obtain ⟨read, hread, -⟩ := bind_eq_ok.mp hform
      obtain ⟨-, -, haccept⟩ := postForm_accepted_iff (repeatedCodec 0) sampleVerifier (sampleForm 0)
        (str "b") read.2 form.2 read.1 form.1 result.2 hread hform
      obtain ⟨hsigned, -, hbinds⟩ := haccept.mp ⟨result.1, hverify⟩
      exact ⟨form.1, form.2, result.1, result.2, rfl, hverify, hrun.1, hrun.2, hsigned, hbinds⟩

end S3Gateway.S3gw
