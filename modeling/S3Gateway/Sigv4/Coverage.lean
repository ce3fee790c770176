import S3Gateway.Go.Runes
import S3Gateway.Library.Machine
import S3Gateway.Sigv4.Verify

/-! # What a verified signature covers

Every `x-amz-` header that a request has once it has been verified was signed: as a header
of the client's list, or as a query parameter that was promoted. -/

namespace S3Gateway.Sigv4

open Go S3err Fallible

section Coverage

variable [Unicode]

/-! ## The client's list -/

def clientSignedHeaders (r : Request) : List Bytes :=
  if hasQueryAuth r then presignSignedHeaders r.url.query
  else
    match parseAuthorizationHeader (r.header.get (str "Authorization")) with
    | .ok auth => auth.signedHeaders
    | .error _ => []

def signatureParam (r : Request) : Bytes := if hasQueryAuth r then str "X-Amz-Signature" else []

structure Accepted (rt : Runtime) (v : Verifier) (r : Request) (vr : VerifiedHeaders) : Prop where
  listed : checkSignedHeaderList (clientSignedHeaders r) = .ok ()
  amzSigned : requireSignedAmzHeaders vr.accessKeyID r.header (clientSignedHeaders r) = .ok ()
  text : ∃ canonical, canonicalRequest rt.parseAuthority r (clientSignedHeaders r) (signatureParam r)
      vr.payloadHash = .ok canonical ∧
    vr.signature = signature v.crypto vr.signingKey vr.signingTime vr.scope canonical

variable {rt : Runtime} {v : Verifier} {r : Request} {vr : VerifiedHeaders} {h : Header}

theorem checkSignature_ok {s : KeyScope} {cred : Credential} {t : Time} {names : List Bytes}
    {drop payloadHash presented key : Bytes}
    (hcheck : checkSignature rt v r s cred t names drop payloadHash presented = .ok key) :
    checkSignedHeaderList names = .ok () ∧
      ∃ canonical, canonicalRequest rt.parseAuthority r names drop payloadHash = .ok canonical ∧
        presented = signature v.crypto key t s.text canonical := by
  simp only [checkSignature, bind_eq_ok, mapError_eq_ok, require_eq_ok] at hcheck
  obtain ⟨_, hlisted, canonical, hcanonical, key', -, _, hsignature, hkey⟩ := hcheck
  cases hkey
  exact ⟨hlisted, canonical, hcanonical, hsignature.symm⟩

theorem verifyHeaderRequest_ok (hsigned : ¬hasQueryAuth r)
    (hverify : verifyHeaderRequest rt v r = .ok (vr, h)) :
    Accepted rt v r vr ∧ h = r.header ∧ vr.signedHeaders = signedHeaderSet (clientSignedHeaders r) := by
  simp only [verifyHeaderRequest, authorizationOf, bind_eq_ok, mapError_eq_ok, require_eq_ok] at hverify
  obtain ⟨auth, ⟨_, hparse, _, hservice, _, -, hauth⟩, _, hamz, cred, -, t, -, _, -, key, hcheck, hresult⟩ := hverify
  cases hauth
  cases hresult
  have hnames : clientSignedHeaders r = auth.signedHeaders := by
    rw [clientSignedHeaders, if_neg hsigned, hparse]
  have hscope : auth.scope = KeyScope.text ⟨auth.accessKeyID, auth.date, auth.region⟩ := by
    rw [AuthHeader.scope, hservice]
    rfl
  obtain ⟨hlisted, canonical, hcanonical, hsignature⟩ := checkSignature_ok hcheck
  refine ⟨⟨hnames ▸ hlisted, hnames ▸ hamz, canonical, ?_, ?_⟩, rfl, by rw [hnames]⟩
  · rw [hnames, signatureParam, if_neg hsigned]
    exact hcanonical
  · rw [hscope]
    exact hsignature

theorem verifyPresignedRequest_ok (hsigned : hasQueryAuth r)
    (hverify : verifyPresignedRequest rt v r = .ok (vr, h)) :
    Accepted rt v r vr ∧ h = (promoteHoistedQueryParams rt r).1 ∧
      vr.signedHeaders = signedHeaderSet (clientSignedHeaders r ++ (promoteHoistedQueryParams rt r).2) := by
  simp only [verifyPresignedRequest, bind_eq_ok, require_eq_ok] at hverify
  obtain ⟨_, -, s, -, _, -, _, hamz, t, -, cred, -, key, hcheck, hresult⟩ := hverify
  cases hresult
  have hnames : clientSignedHeaders r = presignSignedHeaders r.url.query := if_pos hsigned
  obtain ⟨hlisted, canonical, hcanonical, hsignature⟩ := checkSignature_ok hcheck
  refine ⟨⟨hnames ▸ hlisted, hnames ▸ hamz, canonical, ?_, hsignature⟩, rfl, by rw [hnames]⟩
  rw [hnames, signatureParam, if_pos hsigned]
  exact hcanonical

/-! ## Promotion -/

/-- Where the headers come from after some parameters were promoted: from the wire or from a
    parameter, and then with its values if the wire had none. -/
structure Promoted (query : Values) (wire : Header) (state : Header × List Bytes) : Prop where
  origin : ∀ key ∈ state.1.keys, key ∈ wire.keys ∨ toLower key ∈ state.2
  hoisted : ∀ name ∈ state.2, ∃ k, toLower k = name ∧ isHoisted query k = true
  values : ∀ key ∈ state.1.keys, key ∉ wire.keys → ∃ k, canonicalHeaderKey k = key ∧
    isHoisted query k = true ∧ state.1.valuesOf k = sortStrings (query.valuesOf k)

theorem isHoisted_values {query : Values} {k : Bytes} (hk : isHoisted query k = true) :
    sortStrings (query.valuesOf k) ≠ [] := by
  simp only [isHoisted, Bool.and_eq_true, Bool.not_eq_true', List.isEmpty_eq_false_iff] at hk
  obtain ⟨x, hx⟩ := List.exists_mem_of_ne_nil _ hk.2
  exact List.ne_nil_of_mem (mem_sortStrings.mpr hx)

theorem promoteParam_keeps {query : Values} {wire : Header} {state : Header × List Bytes}
    (hstate : Promoted query wire state) (k : Bytes) :
    Promoted query wire (promoteParam query state k) := by
  obtain ⟨header, promoted⟩ := state
  unfold promoteParam
  by_cases hk : isHoisted query k = true
  · simp only [hk, Bool.not_true, Bool.false_eq_true, if_false]
    -- the names promoted so far, and this one
    have hhoisted : ∀ name ∈ promoted ++ [toLower k], ∃ k, toLower k = name ∧ isHoisted query k = true := by
      intro name hname
      rcases List.mem_append.mp hname with hname | hname
      · exact hstate.hoisted name hname
      · exact ⟨k, (List.mem_singleton.mp hname).symm, hk⟩
    split
    · -- the header is new or was empty: it gets the values of this parameter
      have hkeys : ∀ key, key ∈ (header.assign k (sortStrings (query.valuesOf k))).keys ↔
          key = canonicalHeaderKey k ∨ key ∈ header.keys :=
        fun _ => Header.mem_keys_assign (isHoisted_values hk)
      refine ⟨?_, hhoisted, ?_⟩
      · intro key hkey
        rcases (hkeys key).mp hkey with rfl | hkey
        · right
          rw [toLower_canonicalHeaderKey]
          exact List.mem_append_right _ List.mem_cons_self
        · exact (hstate.origin key hkey).imp_right (List.mem_append_left _)
      · intro key hkey hwire
        by_cases hsame : key = canonicalHeaderKey k
        · refine ⟨k, hsame.symm, hk, ?_⟩
          rw [Header.valuesOf_eq, Header.lines_assign, if_pos rfl]
        · have hold := ((hkeys key).mp hkey).resolve_left hsame
          obtain ⟨k', hk', hhoisted', hvalues⟩ := hstate.values key hold hwire
          refine ⟨k', hk', hhoisted', ?_⟩
          rw [Header.valuesOf_eq, Header.lines_assign, if_neg (by rw [hk']; exact hsame)]
          exact hvalues
    · -- a header with a value is left alone; only the name counts as signed
      refine ⟨?_, hhoisted, hstate.values⟩
      intro key hkey
      exact (hstate.origin key hkey).imp_right (List.mem_append_left _)
  · simp only [hk, Bool.not_false, if_true]
    exact hstate

theorem promoted_wire (query : Values) (wire : Header) : Promoted query wire (wire, []) :=
  ⟨fun _ hkey => .inl hkey, nofun, fun _ hkey hwire => absurd hkey hwire⟩

theorem promoteHoistedQueryParams_promoted (rt : Runtime) (r : Request) :
    Promoted r.url.query r.header (promoteHoistedQueryParams rt r) := by
  refine Machine.invariant (P := fun _ state => Promoted r.url.query r.header state) ?_ ?_ _
  · exact promoted_wire r.url.query r.header
  · intro _ k hstate
    exact promoteParam_keeps hstate k

/-! ## Coverage -/

theorem requireSignedAmzHeaders_ok {akid : Bytes} {names : List Bytes}
    (hrequire : requireSignedAmzHeaders akid h names = .ok ()) :
    ∀ key ∈ h.keys, hasPrefix (toLower key) amzPrefix = true → toLower key ∈ signedHeaderSet names := by
  intro key hkey hamz
  simp only [requireSignedAmzHeaders, require_eq_ok, List.filter_eq_nil_iff, Bool.and_eq_true,
    Bool.not_eq_true', not_and, Bool.not_eq_false] at hrequire
  exact List.contains_iff_mem.mp (hrequire _ (List.mem_map_of_mem hkey) hamz)

theorem signedHeaderListLoop_ok {prev : Option Bytes} {hasHost : Bool} {names : List Bytes}
    (hcheck : signedHeaderListLoop prev hasHost names = .ok ()) :
    ∀ name ∈ names, name ≠ [] ∧ toLower name = name ∧ name ≠ str "authorization" := by
  induction names generalizing prev hasHost with
  | nil => nofun
  | cons n rest ih =>
    rw [signedHeaderListLoop] at hcheck
    split at hcheck
    · cases hcheck
    · rename_i hlower
      split at hcheck
      · cases hcheck
      · split at hcheck
        · cases hcheck
        · rename_i hother
          rw [List.forall_mem_cons]
          rw [not_or, not_ne_iff] at hlower
          exact ⟨⟨hlower.1, hlower.2.symm, hother⟩, ih hcheck⟩

theorem signedHeaderSet_eq {names : List Bytes} (hlower : ∀ name ∈ names, toLower name = name) :
    signedHeaderSet names = names := by
  rw [signedHeaderSet, List.map_congr_left hlower, List.map_id']

theorem signedHeaderSet_listed {names : List Bytes} (h : checkSignedHeaderList names = .ok ()) :
    signedHeaderSet names = names :=
  signedHeaderSet_eq fun name hname => (signedHeaderListLoop_ok h name hname).2.1

theorem isHoisted_ne_signatureParam {k : Bytes} (hk : isHoisted r.url.query k = true) :
    k ≠ signatureParam r := by
  rintro rfl
  simp only [isHoisted, Bool.and_eq_true, Bool.not_eq_true'] at hk
  unfold signatureParam at hk
  split at hk
  · have hauth : isAuthParam (toLower (str "X-Amz-Signature")) = true := by
      simp [isAuthParam, presignAuthParams]
    rw [hauth] at hk
    cases hk.1.2
  · exact absurd hk.1.1 Bool.false_ne_true

/-- Either way of signing, the header is that of the wire and what was promoted. -/
theorem verify_ok (hverify : verify rt v r = .ok (vr, h)) : Accepted rt v r vr ∧
    ∃ promoted, Promoted r.url.query r.header (h, promoted) ∧
      vr.signedHeaders = signedHeaderSet (clientSignedHeaders r ++ promoted) := by
  by_cases hpresigned : hasQueryAuth r
  · have hquery : verifyPresignedRequest rt v r = .ok (vr, h) := by
      unfold verify at hverify
      split at hverify
      · cases hverify
      · exact hverify
    obtain ⟨haccepted, rfl, hsigned⟩ := verifyPresignedRequest_ok hpresigned hquery
    exact ⟨haccepted, _, promoteHoistedQueryParams_promoted rt r, hsigned⟩
  · have hheader : verifyHeaderRequest rt v r = .ok (vr, h) := by
      rw [verify, if_neg fun hboth => hpresigned hboth.1, if_neg hpresigned] at hverify
      split at hverify
      · exact hverify
      · cases hverify
    obtain ⟨haccepted, rfl, hsigned⟩ := verifyHeaderRequest_ok hpresigned hheader
    exact ⟨haccepted, [], promoted_wire _ _, by rw [hsigned, List.append_nil]⟩

/-- The header of an accepted request: its `x-amz-` names are covered, and what covers them. -/
theorem verify_covered (rt : Runtime) (v : Verifier) (r : Request) (vr : VerifiedHeaders) (h : Header)
    (hstable : Unicode.Stable)
    (hquery : (signedURL rt.parseAuthority r).query = r.url.query)
    (hverify : verify rt v r = .ok (vr, h)) :
    (∀ key ∈ h.keys, hasPrefix (toLower key) amzPrefix = true → toLower key ∈ vr.signedHeaders) ∧
      (∃ canonical, canonicalRequest rt.parseAuthority r (clientSignedHeaders r) (signatureParam r)
          vr.payloadHash = .ok canonical ∧
        vr.signature = signature v.crypto vr.signingKey vr.signingTime vr.scope canonical ∧
        ∀ name ∈ vr.signedHeaders,
          (name ∈ clientSignedHeaders r ∧ wireValues r name ≠ [] ∧
            newline :: (name ++ ch ':' :: signedValue r name) ++ [newline] <:+: canonical) ∨
          ∃ k, toLower k = name ∧ isHoisted r.url.query k = true ∧
            (parseQuery (canonicalQuery (signedURL rt.parseAuthority r) (signatureParam r))).valuesOf k =
              sortStrings (r.url.query.valuesOf k)) ∧
      ∀ key ∈ h.keys, hasPrefix (toLower key) amzPrefix = true → key ∉ r.header.keys →
        ∃ k, canonicalHeaderKey k = key ∧ toLower k = toLower key ∧ isHoisted r.url.query k = true ∧
          h.valuesOf k = sortStrings (r.url.query.valuesOf k) := by
  obtain ⟨⟨hlisted, hamz, canonical, hcanonical, hsignature⟩, promoted, hpromoted, hsigned⟩ := verify_ok hverify
  have hclient := signedHeaderSet_listed hlisted
  -- the promoted names are lowered already, so the set of what was signed is the client's list and them
  have hpromotedSet : signedHeaderSet promoted = promoted := by
    refine signedHeaderSet_eq fun name hname => ?_
    obtain ⟨k, rfl, -⟩ := hpromoted.hoisted name hname
    exact toLower_toLower hstable k
  have hset : ∀ name, name ∈ vr.signedHeaders ↔ name ∈ clientSignedHeaders r ∨ name ∈ promoted := by
    intro name
    rw [hsigned, signedHeaderSet, List.map_append, List.mem_append, ← signedHeaderSet,
      hclient, ← signedHeaderSet, hpromotedSet]
  refine ⟨?_, ⟨canonical, hcanonical, hsignature, ?_⟩, ?_⟩
  · intro key hkey hprefixed
    rw [hset]
    rcases hpromoted.origin key hkey with hwire | hparam
    · left
      rw [← hclient]
      exact requireSignedAmzHeaders_ok hamz key hwire hprefixed
    · exact .inr hparam
  · intro name hname
    rcases (hset name).mp hname with hlist | hparam
    · left
      exact ⟨hlist, ((canonicalRequest_eq_ok _).mp hcanonical).1 name hlist,
        line_within_canonicalRequest _ hcanonical hlist⟩
    · right
      obtain ⟨k, hlower, hhoisted⟩ := hpromoted.hoisted name hparam
      refine ⟨k, hlower, hhoisted, ?_⟩
      rw [valuesOf_canonicalQuery (isHoisted_ne_signatureParam hhoisted), hquery]
  · intro key hkey _ hwire
    obtain ⟨k, rfl, hhoisted, hvalues⟩ := hpromoted.values key hkey hwire
    exact ⟨k, rfl, (toLower_canonicalHeaderKey k).symm, hhoisted, hvalues⟩

end Coverage

/-! ## A presigned request -/

def sampleRuntime : Runtime where
  parseAuthority := some
  quote := id
  rangeKeys := Values.keys
  rangeKeys_perm _ := List.Perm.refl _

/-- Functions that make every signature `01`. -/
def constantCrypto : Crypto where
  sha256 _ := []
  hmac _ _ := [1]

/-- A verifier at noon of a leap day, whose store has one secret for every key. -/
def noonVerifier : Verifier where
  region := str "us-east-1"
  now := Gregorian.Date.toDays ⟨2024, 2, 29⟩ * day + 12 * hour
  crypto := constantCrypto
  lookup _ token :=
    .ok { secretAccessKey := str "secret", hasSigningKey := false, secretVersion := [], sessionToken := token }
  deriveKey _ cred date region := .ok (deriveSigningKey constantCrypto cred.secretAccessKey date region)
  parseAmzDate := parseAmzDate
  scopeDate := formatScopeDate

def presignedQuery : Bytes :=
  str ("X-Amz-Algorithm=AWS4-HMAC-SHA256&X-Amz-Credential=AK%2F20240229%2Fus-east-1%2Fs3%2Faws4_request" ++
    "&X-Amz-Date=20240229T120000Z&X-Amz-Expires=60&X-Amz-SignedHeaders=host&x-amz-meta-note=b" ++
    "&x-amz-meta-note=a&X-Amz-Signature=01")

def presignedRequest : Request := sampleRequest (str "/bucket/key?" ++ presignedQuery) presignedQuery []

def presignedVerified : VerifiedHeaders where
  accessKeyID := str "AK"
  signingKey := [1]
  signature := str "01"
  signingTime := noonVerifier.now
  scope := str "20240229/us-east-1/s3/aws4_request"
  region := str "us-east-1"
  payloadHash := str "UNSIGNED-PAYLOAD"
  signedHeaders := [str "host", str "x-amz-meta-note"]

theorem presignedRequest_covered :
    let _ := asciiTables
    ∃ k, canonicalHeaderKey k = str "X-Amz-Meta-Note" ∧ toLower k = toLower (str "X-Amz-Meta-Note") ∧
      isHoisted presignedRequest.url.query k = true ∧
      Header.valuesOf [(str "X-Amz-Meta-Note", str "a"), (str "X-Amz-Meta-Note", str "b")] k =
        sortStrings (presignedRequest.url.query.valuesOf k) := by
  intro _
  have hquery : (signedURL sampleRuntime.parseAuthority presignedRequest).query = presignedRequest.url.query := by
    decide +kernel
  have hverify : verify sampleRuntime noonVerifier presignedRequest = .ok (presignedVerified,
      [(str "X-Amz-Meta-Note", str "a"), (str "X-Amz-Meta-Note", str "b")]) := by
    decide +kernel
  exact (verify_covered sampleRuntime noonVerifier presignedRequest presignedVerified _ asciiTables_stable
    hquery hverify).2.2 (str "X-Amz-Meta-Note") (by decide) (by decide +kernel) (by decide)

end S3Gateway.Sigv4
