import S3Gateway.S3gw.ChecksumSupport
import S3Gateway.S3gw.HandleRequest

/-! # Refused checksum algorithms stay at the gateway

A checksum reaches a call in four ways: as a value header, which is copied whatever the
policy, as the algorithm a header names, as a declared trailer, and as a value of a part in a
body.  Each way has its own check, at a different place: value headers are refused with the
unknown headers before a request is dispatched, names when the input is built, trailers when
the body is opened, parts when the body has been read.  Together they let no algorithm through
that is not offered, on any route. -/

namespace S3Gateway.S3gw

open Go S3err Interaction

/-! ## What a call says about checksums -/

namespace BackendInput

/-- The values an input carries, of its own and of the parts it names. -/
def checksumValues : BackendInput → ChecksumValues
  | putObject i => i.checksums
  | uploadPart i => i.checksums
  | completeMultipartUpload i => i.checksums ++ i.parts.flatMap (·.checksums)
  | _ => []

def checksumName : BackendInput → Bytes
  | putObject i => i.checksumAlgorithm
  | uploadPart i => i.checksumAlgorithm
  | createMultipartUpload i => i.checksumAlgorithm
  | copyObject i => i.checksumAlgorithm
  | _ => []

end BackendInput

theorem knownAmzHeaders_checksum {name : Bytes} (h : name ∈ knownAmzHeaders)
    (hchecksum : hasPrefix name headerPrefix = true) :
    name ∈ [str "x-amz-checksum-algorithm", str "x-amz-checksum-type", str "x-amz-checksum-mode"] := by
  have hfilter : knownAmzHeaders.filter (hasPrefix · headerPrefix) =
      [str "x-amz-checksum-algorithm", str "x-amz-checksum-type", str "x-amz-checksum-mode"] := by
    decide +kernel
  rw [← hfilter]
  exact List.mem_filter.mpr ⟨h, hchecksum⟩

section

variable [Unicode]

/-- A name of an algorithm that is offered: its own, or any other spelling in upper case. -/
def NamesOffered (p : ChecksumPolicy) (name : Bytes) : Prop :=
  name = [] ∨ ∃ alg a, lookupAlgorithm alg = some a ∧ p.support a ≠ .refused ∧ (name = a.name ∨ name = toUpper alg)

/-- Everything an input says is about algorithms that are offered. -/
structure CarriesOffered (p : ChecksumPolicy) (i : BackendInput) : Prop where
  values : ∀ v ∈ i.checksumValues, p.support v.1 ≠ .refused
  name : NamesOffered p i.checksumName

theorem carriesOffered_of_none {p : ChecksumPolicy} {i : BackendInput} (hvalues : i.checksumValues = [])
    (hname : i.checksumName = []) : CarriesOffered p i where
  values v hv := by simp [hvalues] at hv
  name := .inl hname

/-! ## The four checks -/

variable {c : OpCtx}

theorem header_facts (a : Algorithm) :
    toLower a.header = a.header ∧ hasPrefix a.header (str "x-amz-") = true ∧ a.header ∉ knownAmzHeaders ∧
      hasPrefix a.header amzMetaPrefix = false := by
  have hheader : a.header = headerPrefix ++ a.name.map lowerByte := by
    rw [Algorithm.header, toLower_ascii a.name_ascii]
  have hall : ∀ a ∈ Algorithm.all, ∀ header ∈ [headerPrefix ++ a.name.map lowerByte],
      header.all (· < 0x80) = true ∧ header.map lowerByte = header ∧ hasPrefix header (str "x-amz-") = true ∧
        hasPrefix header headerPrefix = true ∧ hasPrefix header amzMetaPrefix = false ∧
        header ∉ [str "x-amz-checksum-algorithm", str "x-amz-checksum-type", str "x-amz-checksum-mode"] := by
    decide +kernel
  obtain ⟨hascii, hlower, hamz, hchecksum, hmeta, hunlisted⟩ := hall a a.mem_all _ List.mem_cons_self
  rw [hheader, toLower_ascii (forall_mem_of_all hascii)]
  exact ⟨hlower, hamz, fun h => hunlisted (knownAmzHeaders_checksum h hchecksum), hmeta⟩

theorem knownHeader_header {p : ChecksumPolicy} {a : Algorithm} (h : p.knownHeader a.header = true) :
    p.support a ≠ .refused := by
  obtain ⟨b, -, hb⟩ := List.any_eq_true.mp h
  rw [Bool.and_eq_true, beq_iff_eq, bne_iff_ne] at hb
  rw [← Algorithm.header_inj hb.1]
  exact hb.2

/-- A value header that passed for a known one is of an algorithm that is offered. -/
theorem checksumsFromHeaders_offered {hdr : SignedHeader} {p : ChecksumPolicy}
    (hknown : hdr.checkKnownAmzHeaders p.knownHeader = none) :
    ∀ v ∈ checksumsFromHeaders hdr.h, p.support v.1 ≠ .refused := by
  intro v hv
  obtain ⟨a, -, ha⟩ := List.mem_filterMap.mp hv
  split at ha
  · cases ha
  · rename_i hget
    cases ha
    obtain ⟨hlower, hamz, hunlisted, hmeta⟩ := header_facts a
    -- the header is there, under its canonical name
    have hkey : canonicalHeaderKey a.header ∈ hdr.h.keys := by
      rw [Header.mem_keys_iff, ← Header.valuesOf_eq]
      intro hnone
      exact hget (by rw [Header.get, hnone]; rfl)
    have hname : a.header ∈ hdr.h.keys.map toLower :=
      List.mem_map.mpr ⟨_, hkey, by rw [toLower_canonicalHeaderKey, hlower]⟩
    unfold SignedHeader.checkKnownAmzHeaders at hknown
    dsimp only at hknown
    split at hknown
    · rename_i hempty
      rw [List.isEmpty_iff, List.filter_eq_nil_iff] at hempty
      have hpassed := hempty a.header hname
      apply knownHeader_header
      simpa [hamz, hunlisted, hmeta] using hpassed
    · cases hknown

theorem checksumAlgorithm_offered {name : Bytes} (h : c.checksumAlgorithm = .ok name) :
    NamesOffered c.g.checksums name := by
  unfold OpCtx.checksumAlgorithm at h
  dsimp only at h
  split at h
  · cases h
    exact .inl rfl
  · split at h
    · cases h
    · rename_i a hlookup
      split at h
      · cases h
      · rename_i hoffered
        cases h
        exact .inr ⟨_, a, hlookup, hoffered, .inl rfl⟩

theorem trailer_offered {body : Payload × Int} (h : requestBody c = .ok body) :
    NamesOffered c.g.checksums (trailerChecksumAlgorithm c) := by
  obtain ⟨alg, halg, h⟩ := Fallible.bind_eq_ok.mp h
  obtain ⟨_, hcheck, -⟩ := Fallible.bind_eq_ok.mp h
  rw [failWith_eq_ok, OpCtx.checkTrailer] at hcheck
  have hdeclared : trailerAlgorithm c.r.header = some alg := by
    cases htrailer : trailerAlgorithm c.r.header with
    | none =>
      rw [htrailer] at halg
      cases halg
    | some alg' =>
      rw [htrailer] at halg
      cases halg
      rfl
  -- an algorithm that is passed on was declared, and a declared one is verified
  unfold trailerChecksumAlgorithm
  rw [hdeclared]
  dsimp only
  split
  · exact .inl rfl
  · rename_i hnamed
    rw [not_or] at hnamed
    have hverified : c.g.checksums.supportOf alg = .verified := by
      by_contra hnot
      rw [if_pos ⟨hnamed.1, hnot⟩] at hcheck
      cases hcheck
    unfold ChecksumPolicy.supportOf at hverified
    split at hverified
    · rename_i a hlookup
      refine .inr ⟨alg, a, hlookup, ?_, .inr rfl⟩
      rw [hverified]
      decide
    · cases hverified

omit [Unicode] in
theorem checkChecksums_offered {v : ChecksumValues} (h : c.checkChecksums v = none) :
    ∀ x ∈ v, c.g.checksums.support x.1 ≠ .refused := by
  rw [OpCtx.checkChecksums, Option.map_eq_none_iff, List.find?_eq_none] at h
  intro x hx
  simpa using h x hx

/-! ## The handlers -/

theorem uploadChecksumAlgorithm_offered {body : Payload × Int} (hbody : requestBody c = .ok body)
    {cs : ChecksumValues} (hcs : ∀ v ∈ cs, c.g.checksums.support v.1 ≠ .refused) :
    NamesOffered c.g.checksums (uploadChecksumAlgorithm c cs) := by
  unfold uploadChecksumAlgorithm
  dsimp only
  split
  · exact trailer_offered hbody
  · cases halg : cs.algorithm with
    | none => exact .inl rfl
    | some a =>
      refine .inr ⟨a.name, a, lookupAlgorithm_name a, ?_, .inl rfl⟩
      -- an algorithm that is named has a value
      have hvalue : (cs.lookup a).getD [] ≠ [] := by
        simpa using List.find?_some halg
      cases hlookup : cs.lookup a with
      | none => simp [hlookup] at hvalue
      | some value =>
        obtain ⟨before, after, rfl, -⟩ := List.lookup_eq_some_iff.mp hlookup
        exact hcs (a, value) (List.mem_append_right _ List.mem_cons_self)

/-- The value headers of a request that is dispatched. -/
def HeadersOffered (c : OpCtx) : Prop :=
  ∀ v ∈ checksumsFromHeaders c.r.header, c.g.checksums.support v.1 ≠ .refused

variable {i : BackendInput}

theorem putObjectInput_offered (hheaders : HeadersOffered c) (h : putObjectInput c = .ok i) :
    CarriesOffered c.g.checksums i := by
  obtain ⟨⟨body, length⟩, hbody, h⟩ := Fallible.bind_eq_ok.mp h
  obtain ⟨contentMD5, -, h⟩ := Fallible.bind_eq_ok.mp h
  obtain ⟨encryption, -, h⟩ := Fallible.bind_eq_ok.mp h
  cases h
  exact ⟨hheaders, uploadChecksumAlgorithm_offered hbody hheaders⟩

theorem uploadPartInput_offered (hheaders : HeadersOffered c) (h : uploadPartInput c = .ok i) :
    CarriesOffered c.g.checksums i := by
  obtain ⟨partNumber, -, h⟩ := Fallible.bind_eq_ok.mp h
  obtain ⟨⟨body, length⟩, hbody, h⟩ := Fallible.bind_eq_ok.mp h
  obtain ⟨contentMD5, -, h⟩ := Fallible.bind_eq_ok.mp h
  cases h
  exact ⟨hheaders, uploadChecksumAlgorithm_offered hbody hheaders⟩

theorem completeMultipartUploadInput_offered (hheaders : HeadersOffered c)
    (h : completeMultipartUploadInput c = .ok i) : CarriesOffered c.g.checksums i := by
  obtain ⟨parts, -, h⟩ := Fallible.bind_eq_ok.mp h
  split at h
  · cases h
  · obtain ⟨_, hparts, h⟩ := Fallible.bind_eq_ok.mp h
    rw [failWith_eq_ok, List.findSome?_eq_none_iff] at hparts
    cases h
    refine ⟨fun v hv => ?_, .inl rfl⟩
    cases List.mem_append.mp hv with
    | inl hown => exact hheaders v hown
    | inr hpart =>
      obtain ⟨part, hmem, hv⟩ := List.mem_flatMap.mp hpart
      exact checkChecksums_offered (hparts part hmem) v hv

theorem createMultipartUploadInput_offered (h : createMultipartUploadInput c = .ok i) :
    CarriesOffered c.g.checksums i := by
  obtain ⟨name, hname, h⟩ := Fallible.bind_eq_ok.mp h
  obtain ⟨encryption, -, h⟩ := Fallible.bind_eq_ok.mp h
  cases h
  exact ⟨by simp [BackendInput.checksumValues], checksumAlgorithm_offered hname⟩

theorem copyObjectInput_offered (h : copyObjectInput c = .ok i) : CarriesOffered c.g.checksums i := by
  obtain ⟨name, hname, h⟩ := Fallible.bind_eq_ok.mp h
  obtain ⟨encryption, -, h⟩ := Fallible.bind_eq_ok.mp h
  cases h
  exact ⟨by simp [BackendInput.checksumValues], checksumAlgorithm_offered hname⟩

theorem offered_of_bind {α : Type} {p : ChecksumPolicy} {x : Except S3Error α} {f : α → Except S3Error BackendInput}
    (hf : ∀ a i, f a = .ok i → CarriesOffered p i) (i : BackendInput) (h : (x >>= f) = .ok i) :
    CarriesOffered p i := by
  obtain ⟨a, -, h⟩ := Fallible.bind_eq_ok.mp h
  exact hf a i h

theorem offered_of_ok {p : ChecksumPolicy} {built : BackendInput} (hvalues : built.checksumValues = [])
    (hname : built.checksumName = []) (i : BackendInput) (h : Except.ok (ε := S3Error) built = .ok i) :
    CarriesOffered p i := by
  cases h
  exact carriesOffered_of_none hvalues hname

theorem proxied_offered {input : Except S3Error BackendInput}
    (h : ∀ i, input = .ok i → CarriesOffered c.g.checksums i) :
    (proxied c input).EachCall fun call => CarriesOffered c.g.checksums call.input :=
  proxied_eachCall.mpr h

theorem run_offered (hheaders : HeadersOffered c) (handler : Handler) :
    (handler.run c).EachCall fun call => CarriesOffered c.g.checksums call.input := by
  cases handler with
  | putObjectOrCopy =>
    refine proxied_offered fun i hi => ?_
    split at hi
    · exact copyObjectInput_offered hi
    · exact putObjectInput_offered hheaders hi
  | uploadPartOrCopy =>
    refine proxied_offered fun i hi => ?_
    split at hi
    · exact offered_of_bind (fun _ => offered_of_ok rfl rfl) i hi
    · exact uploadPartInput_offered hheaders hi
  | createMultipartUpload => exact proxied_offered fun i hi => createMultipartUploadInput_offered hi
  | completeMultipartUpload => exact proxied_offered fun i hi => completeMultipartUploadInput_offered hheaders hi
  | deleteObjects =>
    refine Prog.eachCall_iff.mpr fun call hcall => ?_
    obtain ⟨-, d, hd, -⟩ := Prog.eachCall_iff.mp (deleteObjects_eachCall c) call hcall
    rw [hd]
    exact carriesOffered_of_none rfl rfl
  | getObjectAttributes =>
    refine proxied_offered fun i hi => ?_
    unfold getObjectAttributesInput at hi
    dsimp only at hi
    split at hi
    · cases hi
    · exact offered_of_bind (fun _ => offered_of_ok rfl rfl) i hi
  -- two values are read before the input is built
  | deleteObject | putObjectRetention =>
    exact proxied_offered (offered_of_bind fun _ => offered_of_bind fun _ => offered_of_ok rfl rfl)
  -- one value is
  | listMultipartUploads | listObjectVersions | listObjectsV2 | listObjectsV1 | listParts | getObject
  | headObject | putObjectTagging | putObjectLegalHold =>
    exact proxied_offered (offered_of_bind fun _ => offered_of_ok rfl rfl)
  -- the input is always built
  | getObjectLockConfiguration | getBucketVersioning | getBucketEncryption | headBucket
  | getObjectTagging | getObjectACL | getObjectRetention | getObjectLegalHold | abortMultipartUpload
  | deleteObjectTagging => exact proxied_offered (offered_of_ok rfl rfl)
  -- there is no call
  | getBucketPolicy | getBucketCors | getBucketLocation | getBucketACL | getBucketPolicyStatus
  | getBucketOwnershipControls | getPublicAccessBlock | rejectACL | notImplemented _ | unknownOperation _ =>
    exact run_silent rfl (by simp) _

/-! ## Every request -/

variable {g : Gateway} {dec : Decoding} {r : Request} {call : BackendCall}

theorem handleTarget_offered {b : Bucket} {vr : VerifiedRequest} {key : Bytes}
    (hheaders : ∀ v ∈ checksumsFromHeaders r.header, g.checksums.support v.1 ≠ .refused)
    (h : (handleTarget g dec r b vr key).Issues call) : CarriesOffered g.checksums call.input := by
  obtain ⟨rt, c', hdispatched, hrun⟩ := dispatched_of_issues h
  obtain ⟨actions, hpass⟩ := hdispatched.passed
  have hc' : HeadersOffered c' := by
    rw [hpass.context]
    exact hheaders
  have hoffered := Prog.eachCall_iff.mp (run_offered hc' rt.handle) call hrun
  rw [hpass.context] at hoffered
  exact hoffered

theorem postPutObject_offered (p : ChecksumPolicy) (c : OpCtx) (fields : Sigv4.Fields) (pp : Sigv4.PostPolicy) :
    (postPutObject c fields pp).EachCall fun call => CarriesOffered p call.input := by
  unfold postPutObject
  split
  · trivial
  · rename_i i hi
    obtain ⟨encryption, -, hi⟩ := Fallible.bind_eq_ok.mp hi
    cases hi
    refine ⟨carriesOffered_of_none rfl rfl, fun reply => ?_⟩
    unfold postPutReply
    split
    · trivial
    · split
      · exact ⟨carriesOffered_of_none rfl rfl, fun _ => trivial⟩
      · trivial

/-- No request whatever makes the gateway send a value of an algorithm it does not offer, or
    ask for one by name. -/
theorem handleRequest_offered (g : Gateway) (dec : Decoding) (r : Request) (form : Form) :
    (handleRequest g dec r form).EachCall fun call => CarriesOffered g.checksums call.input := by
  refine Prog.eachCall_iff.mpr fun call h => ?_
  unfold handleRequest at h
  split at h
  · cases h
  · split at h
    · exact absurd h not_issues_refuse
    · obtain ⟨c, fields, pp, -, -, hpost⟩ := handlePostObject_issues h
      exact Prog.eachCall_iff.mp (postPutObject_offered g.checksums c fields pp) call hpost
    · obtain ⟨vr, header, t, -, hknown, -, -, -, hbucket⟩ := handleSigned_issues h
      obtain ⟨b, _, -, -, -, htarget⟩ := handleBucket_issues hbucket
      -- dispatch sees the header that was checked
      exact handleTarget_offered (checksumsFromHeaders_offered hknown) htarget

end

end S3Gateway.S3gw
