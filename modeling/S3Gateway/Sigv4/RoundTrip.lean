import S3Gateway.Sigv4.Coverage
import S3Gateway.Sigv4.Expiry
import S3Gateway.Sigv4.Replay

/-! # What a client signs is verified

The signer's side of `signature`: a client computes it over the canonical request of what it
is about to send and attaches it, as a header or as a query parameter.  Neither way disturbs
the text the signature was computed over, and the verifier reads back what was attached. -/

namespace S3Gateway.Sigv4

open Go S3err Fallible

/-! ## The signer -/

structure Signer where
  akid : Bytes
  secret : Bytes
  region : Bytes
  time : Time
  /-- the header names it signs -/
  names : List Bytes

namespace Signer

variable (c : Signer)

def scope : KeyScope where
  akid := c.akid
  date := formatScopeDate c.time
  region := c.region

def credential : Bytes :=
  join [c.akid, formatScopeDate c.time, c.region, str "s3", str "aws4_request"] (str "/")

def key (crypto : Crypto) : Bytes := deriveSigningKey crypto c.secret (formatScopeDate c.time) c.region

/-- The signature of a request with this canonical form. -/
def sign (crypto : Crypto) (canonical : Bytes) : Bytes :=
  signature crypto (c.key crypto) c.time c.scope.text canonical

/-- The value of the `Authorization` header. -/
def authorization (sig : Bytes) : Bytes :=
  sigV4Algorithm ++ ch ' ' :: join [str "Credential=" ++ c.credential,
    str " SignedHeaders=" ++ join c.names (str ";"), str " Signature=" ++ sig] (str ",")

def attachHeader (r : Request) (sig : Bytes) : Request :=
  { r with header := r.header.set (str "Authorization") (c.authorization sig) }

def authHeader (sig : Bytes) : AuthHeader where
  accessKeyID := c.akid
  date := formatScopeDate c.time
  region := c.region
  service := str "s3"
  signedHeaders := c.names
  signature := sig

theorem attachHeader_header (r : Request) (sig : Bytes) :
    (c.attachHeader r sig).header = r.header.assign (str "Authorization") [c.authorization sig] := rfl

end Signer

def attachQuery (r : Request) (sig : Bytes) : Request :=
  { r with
    requestURI := r.requestURI ++ str "&X-Amz-Signature=" ++ sig
    url := { r.url with rawQuery := r.url.rawQuery ++ str "&X-Amz-Signature=" ++ sig } }

/-! ## Texts that are read back -/

theorem visible_of_token : ∀ b : UInt8, isTokenByte b = true → isVisible b = true ∧ b ≠ ch ';' ∧ b ≠ ch ',' :=
  forall_byte (by decide +kernel)

def HeaderNames (names : List Bytes) : Prop :=
  names ≠ [] ∧ ∀ name ∈ names, name ≠ [] ∧ name.all isTokenByte = true

namespace HeaderNames

variable {names : List Bytes}

theorem visible (h : HeaderNames names) {name : Bytes} (hname : name ∈ names) {b : UInt8} (hb : b ∈ name) :
    isVisible b = true ∧ b ≠ ch ';' ∧ b ≠ ch ',' :=
  visible_of_token b (List.all_eq_true.mp (h.2 name hname).2 b hb)

theorem split_join (h : HeaderNames names) : split (ch ';') (join names (str ";")) = names :=
  List.splitOn_intercalate (ch ';') (fun _ hname hmem => (h.visible hname hmem).2.1 rfl) h.1

theorem comma_not_mem (h : HeaderNames names) : ch ',' ∉ join names (str ";") := by
  intro hmem
  rcases Fields.mem_intercalate hmem with hmem | ⟨name, hname, hmem⟩
  · exact absurd hmem (by decide)
  · exact (h.visible hname hmem).2.2 rfl

theorem visible_join (h : HeaderNames names) : ∀ b ∈ join names (str ";"), isVisible b = true := by
  intro b hb
  rcases Fields.mem_intercalate hb with rfl | ⟨name, hname, hb⟩
  · decide
  · exact (h.visible hname hb).1

end HeaderNames

theorem isAlnum_of_mem_hexEncode {data : Bytes} : ∀ b ∈ hexEncode data, isAlnum b = true := by
  have hdigit : ∀ d < 16, isAlnum (hexDigitLower d) = true := by decide
  intro b hb
  obtain ⟨d, hd, rfl⟩ := mem_hexEncode hb
  exact hdigit d hd

theorem visible_of_isAlnum : ∀ b : UInt8, isAlnum b = true → isVisible b = true ∧ b ≠ ch ',' :=
  forall_byte (by decide +kernel)

theorem cut_component (key : Bytes) {value : Bytes} (hkey : ∀ b ∈ key, isVisible b = true ∧ b ≠ ch '=')
    (hvalue : ∀ b ∈ value, isVisible b = true) :
    cut (ch '=') (trimSpace (ch ' ' :: (key ++ ch '=' :: value))) = (key, value, true) := by
  rw [trimSpace_space_cons, cut_append fun h => (hkey _ h).2 rfl]
  refine trimmed_of_all_visible fun b hb => ?_
  rcases List.mem_append.mp hb with hb | hb
  · exact (hkey b hb).1
  · rcases List.mem_cons.mp hb with rfl | hb
    · decide
    · exact hvalue b hb

section Authorization

variable {c : Signer} {sig : Bytes}

/-- A key and a region that keep their places in a credential. -/
structure Signer.Placed (c : Signer) : Prop where
  akid_ne : c.akid ≠ []
  akid : ch '/' ∉ c.akid ∧ ch ',' ∉ c.akid
  region : ch '/' ∉ c.region ∧ ch ',' ∉ c.region
  time : Datable c.time

theorem Signer.Placed.date (h : c.Placed) : ch '/' ∉ formatScopeDate c.time ∧ ch ',' ∉ formatScopeDate c.time :=
  ⟨fun hmem => absurd (isDigit_of_mem_formatScopeDate h.time _ hmem) (by decide),
    fun hmem => absurd (isDigit_of_mem_formatScopeDate h.time _ hmem) (by decide)⟩

theorem split_credential (h : c.Placed) : split (ch '/') c.credential =
    [c.akid, formatScopeDate c.time, c.region, str "s3", str "aws4_request"] := by
  refine List.splitOn_intercalate (ch '/') ?_ (List.cons_ne_nil _ _)
  simp only [List.forall_mem_cons, List.not_mem_nil, false_implies, implies_true, and_true]
  exact ⟨h.akid.1, h.date.1, h.region.1, by decide, by decide⟩

theorem comma_not_mem_credential (h : c.Placed) : ch ',' ∉ c.credential := by
  intro hmem
  rcases Fields.mem_intercalate hmem with hmem | ⟨part, hpart, hmem⟩
  · exact absurd hmem (by decide)
  · simp only [List.mem_cons, List.not_mem_nil, or_false] at hpart
    rcases hpart with rfl | rfl | rfl | rfl | rfl
    · exact h.akid.2 hmem
    · exact h.date.2 hmem
    · exact h.region.2 hmem
    · exact absurd hmem (by decide)
    · exact absurd hmem (by decide)

theorem cut_credential : cut (ch '=') (trimSpace (str "Credential=" ++ c.credential)) =
    (str "Credential", c.credential, true) := by
  have hlast : ∃ front, c.credential = front ++ str "/aws4_request" := by
    refine ⟨join [c.akid, formatScopeDate c.time, c.region, str "s3"] (str "/"), ?_⟩
    simp [Signer.credential, join, List.intercalate_cons_cons, List.intercalate_singleton]
    rfl
  obtain ⟨front, hfront⟩ := hlast
  have hsplit : str "Credential=" ++ c.credential = str "Credential" ++ ch '=' :: c.credential := rfl
  rw [trimSpace_eq_self, hsplit, cut_append (by decide)]
  refine trimmed_of_visible ?_ ?_
  · intro b hb
    have hc : some (ch 'C') = some b := hb
    rw [← Option.some.inj hc]
    decide
  · intro b hb
    rw [hfront, ← List.append_assoc, List.getLast?_append] at hb
    have ht : some (ch 't') = some b := hb
    rw [← Option.some.inj ht]
    decide

theorem parseAuthorizationHeader_authorization (h : c.Placed) (hnames : HeaderNames c.names)
    (hsig : ∀ b ∈ sig, isAlnum b = true) (hne : sig ≠ []) :
    parseAuthorizationHeader (c.authorization sig) = .ok (c.authHeader sig) := by
  have hcut : cut (ch ' ') (c.authorization sig) = (sigV4Algorithm, _, true) := cut_append (by decide)
  have hparts : split (ch ',') (join [str "Credential=" ++ c.credential,
      str " SignedHeaders=" ++ join c.names (str ";"), str " Signature=" ++ sig] (str ",")) =
      [str "Credential=" ++ c.credential, str " SignedHeaders=" ++ join c.names (str ";"),
        str " Signature=" ++ sig] := by
    -- no component has a comma of its own
    refine List.splitOn_intercalate (ch ',') ?_ (List.cons_ne_nil _ _)
    simp only [List.forall_mem_cons, List.not_mem_nil, false_implies, implies_true, and_true,
      List.mem_append, not_or]
    exact ⟨⟨by decide, comma_not_mem_credential h⟩, ⟨by decide, hnames.comma_not_mem⟩,
      by decide, fun hmem => (visible_of_isAlnum _ (hsig _ hmem)).2 rfl⟩
  have hcredential : authComponent {} (str "Credential=" ++ c.credential) =
      .ok { accessKeyID := c.akid, date := formatScopeDate c.time, region := c.region, service := str "s3" } := by
    simp only [authComponent, cut_credential, split_credential h]
    rfl
  have hheaders : ∀ a, authComponent a (str " SignedHeaders=" ++ join c.names (str ";")) =
      .ok { a with signedHeaders := c.names } := by
    intro a
    have hcomponent : cut (ch '=') (trimSpace (str " SignedHeaders=" ++ join c.names (str ";"))) =
        (str "SignedHeaders", join c.names (str ";"), true) :=
      cut_component (str "SignedHeaders") (by decide +kernel) hnames.visible_join
    simp only [authComponent, hcomponent, hnames.split_join]
    rfl
  have hsignature : ∀ a, authComponent a (str " Signature=" ++ sig) = .ok { a with signature := sig } := by
    intro a
    have hcomponent : cut (ch '=') (trimSpace (str " Signature=" ++ sig)) = (str "Signature", sig, true) :=
      cut_component (str "Signature") (by decide +kernel) fun b hb => (visible_of_isAlnum b (hsig b hb)).1
    simp only [authComponent, hcomponent]
    rfl
  rw [parseAuthorizationHeader, hcut]
  simp only [hparts, List.foldlM_cons, List.foldlM_nil, hcredential, hheaders, hsignature, bind, Except.bind, pure,
    Except.pure]
  rw [if_neg (by decide), if_neg]
  · rfl
  · simp [h.akid_ne, hnames.1, hne]

end Authorization

/-- A verifier with the dates of package `time` and signing keys derived from the secret, which
    is what the cache hands out for a credential with a secret. -/
structure Verifier.Standard (v : Verifier) : Prop where
  parseAmzDate : v.parseAmzDate = Go.parseAmzDate
  scopeDate : v.scopeDate = formatScopeDate
  deriveKey : ∀ akid cred date region, cred.hasSigningKey = false →
    v.deriveKey akid cred date region = .ok (deriveSigningKey v.crypto cred.secretAccessKey date region)

/-! ## A signature in the query -/

section Query

variable {rt : Runtime} {c : Signer} {r : Request}

def signedParams (query : Values) (sig : Bytes) : Values := query ++ [(str "X-Amz-Signature", sig)]

theorem query_attachQuery {sig : Bytes} (hsig : ∀ b ∈ sig, isAlnum b = true) :
    (attachQuery r sig).url.query = signedParams r.url.query sig := by
  have hbyte : ∀ b : UInt8, isAlnum b = true → signedByte b = [b] := forall_byte (by decide +kernel)
  have hescape : escapeSigned sig = sig := by
    rw [escapeSigned, List.flatMap_congr fun b hb => hbyte b (hsig b hb)]
    exact List.flatMap_singleton' sig
  have hname : escapeSigned (str "X-Amz-Signature") = str "X-Amz-Signature" := by decide +kernel
  have hpair : str "X-Amz-Signature=" ++ sig = encodePair (str "X-Amz-Signature", sig) := by
    rw [encodePair, hescape, hname]
    rfl
  have hraw : (attachQuery r sig).url.rawQuery =
      r.url.rawQuery ++ ch '&' :: encodePair (str "X-Amz-Signature", sig) := by
    rw [← hpair]
    exact List.append_assoc _ _ _
  have hparts : ∀ a b, parseQuery (a ++ ch '&' :: b) = parseQuery a ++ parseQuery b := by
    intro a b
    unfold parseQuery split
    rw [List.splitOn_append_cons_self, List.filterMap_append]
  unfold URL.query
  rw [hraw, hparts]
  have hlast := parseQuery_encodePairs [(str "X-Amz-Signature", sig)]
  rw [encodePairs, List.map_singleton, join, List.intercalate_singleton] at hlast
  rw [hlast]
  rfl

theorem signedQuery_append {u : URL} {query : Values} {drop value : Bytes} (hdrop : drop ≠ [])
    (hquery : u.query = query ++ [(drop, value)]) (habsent : query.valuesOf drop = []) :
    signedQuery u drop = query := by
  have hkeep : query.filter (·.1 ≠ drop) = query := by
    refine List.filter_eq_self.mpr fun p hp => decide_eq_true fun hkey => ?_
    have hmem : p.2 ∈ query.valuesOf drop :=
      List.mem_map.mpr ⟨p, List.mem_filter.mpr ⟨hp, decide_eq_true hkey⟩, rfl⟩
    rw [habsent] at hmem
    cases hmem
  rw [signedQuery, if_pos hdrop, hquery, List.filter_append, hkeep]
  simp

/-- The request line with the signature parses to the same URL with the longer query. -/
theorem parseRequestURI_attachQuery {u : URL} {sig : Bytes} (hsig : ∀ b ∈ sig, isAlnum b = true)
    (hline : parseRequestURI rt.parseAuthority r.requestURI = some u) (hu : u.rawQuery = r.url.rawQuery)
    (hne : r.url.rawQuery ≠ []) :
    parseRequestURI rt.parseAuthority (attachQuery r sig).requestURI =
      some { u with rawQuery := (attachQuery r sig).url.rawQuery } := by
  obtain ⟨front, hfront, huri⟩ := parseRequestURI_front hline (hu ▸ hne)
  have hattached : (attachQuery r sig).requestURI = front ++ ch '?' :: (attachQuery r sig).url.rawQuery := by
    change r.requestURI ++ _ ++ _ = _ ++ _ :: (r.url.rawQuery ++ _ ++ _)
    rw [huri, hu]
    simp
  have hctl : (attachQuery r sig).url.rawQuery.any isCTL = false := by
    have hclean := parseRequestURI_clean hline
    rw [huri, hu, List.any_append, List.any_cons, Bool.or_eq_false_iff, Bool.or_eq_false_iff] at hclean
    have hletter : ∀ b : UInt8, isAlnum b = true → ¬isCTL b = true := forall_byte (by decide +kernel)
    change (r.url.rawQuery ++ str "&X-Amz-Signature=" ++ sig).any isCTL = false
    rw [List.any_append, List.any_append, hclean.2.2, Bool.false_or, Bool.or_eq_false_iff]
    exact ⟨by decide, List.any_eq_false.mpr fun b hb => hletter b (hsig b hb)⟩
  rw [hattached]
  rw [huri] at hline
  exact (parseRequestURI_query hfront hline hctl).2

theorem canonicalRequest_attachQuery {u : URL} {sig payloadHash canonical : Bytes}
    (hsig : ∀ b ∈ sig, isAlnum b = true)
    (hline : parseRequestURI rt.parseAuthority r.requestURI = some u) (hu : u.rawQuery = r.url.rawQuery)
    (hne : r.url.rawQuery ≠ []) (hunsigned : r.url.query.valuesOf (str "X-Amz-Signature") = [])
    (hcanonical : canonicalRequest rt.parseAuthority r c.names [] payloadHash = .ok canonical) :
    canonicalRequest rt.parseAuthority (attachQuery r sig) c.names (str "X-Amz-Signature") payloadHash =
      .ok canonical := by
  have hsigned : signedURL rt.parseAuthority r = u := by
    rw [signedURL, hline]
    rfl
  have hsigned' : signedURL rt.parseAuthority (attachQuery r sig) =
      { u with rawQuery := (attachQuery r sig).url.rawQuery } := by
    rw [signedURL, parseRequestURI_attachQuery hsig hline hu hne]
    rfl
  -- the signature is the only pair that was added, and it is the one left out
  have hquery : canonicalQuery { u with rawQuery := (attachQuery r sig).url.rawQuery } (str "X-Amz-Signature") =
      canonicalQuery u [] := by
    have hfull : signedQuery u [] = r.url.query := by
      rw [signedQuery, if_neg (by decide), URL.query, hu]
      rfl
    have hrest : signedQuery { u with rawQuery := (attachQuery r sig).url.rawQuery } (str "X-Amz-Signature") =
        r.url.query := signedQuery_append (by decide) (query_attachQuery hsig) hunsigned
    unfold canonicalQuery
    rw [hfull, hrest]
  obtain ⟨hpresent, rfl⟩ := (canonicalRequest_eq_ok _).mp hcanonical
  refine (canonicalRequest_eq_ok _).mpr ⟨hpresent, ?_⟩
  unfold signedLines
  rw [hsigned, hsigned', hquery]
  rfl

/-- A query with what presigning puts there before the signature, each parameter once. -/
structure Signer.Presigns (c : Signer) (query : Values) (expires : Int) : Prop where
  algorithm : query.valuesOf (str "X-Amz-Algorithm") = [sigV4Algorithm]
  credential : query.valuesOf (str "X-Amz-Credential") = [c.credential]
  date : query.valuesOf (str "X-Amz-Date") = [formatAmzDate c.time]
  signedHeaders : query.valuesOf (str "X-Amz-SignedHeaders") = [join c.names (str ";")]
  lifetime : ∃ text, query.valuesOf (str "X-Amz-Expires") = [text] ∧ parseInt 10 64 text = some expires
  expires : 1 ≤ expires ∧ expires ≤ 604800
  token : (query.valuesOf (str "X-Amz-Security-Token")).length ≤ 1
  unsigned : query.valuesOf (str "X-Amz-Signature") = []

theorem valuesOf_signedParams (query : Values) (sig k : Bytes) : (signedParams query sig).valuesOf k =
    query.valuesOf k ++ if str "X-Amz-Signature" = k then [sig] else [] := by
  have hlast := Multimap.valuesOf_map_pair k (str "X-Amz-Signature") [sig]
  rw [signedParams, Values.valuesOf, Multimap.valuesOf_append]
  exact congrArg _ hlast

theorem valuesOf_signedParams_of_ne (query : Values) (sig : Bytes) {k : Bytes} (hk : str "X-Amz-Signature" ≠ k) :
    (signedParams query sig).valuesOf k = query.valuesOf k := by
  rw [valuesOf_signedParams, if_neg hk, List.append_nil]

namespace Signer.Presigns

variable {query : Values} {expires : Int}

theorem valuesOf_signature (h : c.Presigns query expires) (sig : Bytes) :
    (signedParams query sig).valuesOf (str "X-Amz-Signature") = [sig] := by
  rw [valuesOf_signedParams, if_pos rfl, h.unsigned, List.nil_append]

theorem single (h : c.Presigns query expires) (sig : Bytes) : requireSingleParams (signedParams query sig) = .ok () := by
  have hsingle : ∀ p ∈ presignAuthParams ++ [str "X-Amz-Expires"], ((signedParams query sig).valuesOf p).length ≤ 1 := by
    obtain ⟨text, htext, -⟩ := h.lifetime
    simp (disch := decide) only [presignAuthParams, List.cons_append, List.nil_append, List.forall_mem_cons,
      h.valuesOf_signature, valuesOf_signedParams_of_ne, h.algorithm, h.credential, h.date, h.signedHeaders, htext]
    simp [h.token]
  have hnone := List.find?_eq_none.mpr fun p hp => mt decide_eq_true_eq.mp (Nat.not_lt.mpr (hsingle p hp))
  rw [requireSingleParams, hnone]

theorem get_of_ne {k value : Bytes} (hvalue : query.valuesOf k = [value]) (hk : str "X-Amz-Signature" ≠ k) (sig : Bytes) :
    (signedParams query sig).get k = value := by
  rw [Values.get, valuesOf_signedParams_of_ne query sig hk, hvalue]
  rfl

theorem scope {v : Verifier} (h : c.Presigns query expires) (hc : c.Placed)
    (hpinned : v.region = [] ∨ c.region = v.region) (sig : Bytes) :
    presignScope v (signedParams query sig) = .ok c.scope := by
  rw [presignScope, get_of_ne h.algorithm (by decide), get_of_ne h.credential (by decide), split_credential hc]
  simp only [bind_eq_ok, require_eq_ok]
  exact ⟨(), trivial, (), trivial, (), trivial, (), hpinned, rfl⟩

theorem names (h : c.Presigns query expires) (hnames : HeaderNames c.names) (sig : Bytes) :
    presignSignedHeaders (signedParams query sig) = c.names := by
  rw [presignSignedHeaders, get_of_ne h.signedHeaders (by decide), hnames.split_join]

theorem signingDate {v : Verifier} (h : c.Presigns query expires) (hv : v.Standard) (hc : c.Placed)
    (hlive : v.now ≤ c.time + expires * second) (hbegun : c.time ≤ v.now + maxClockSkew) (sig : Bytes) :
    presignDate v c.scope (signedParams query sig) = .ok c.time := by
  obtain ⟨text, htext, hparse⟩ := h.lifetime
  have hdate : v.parseAmzDate ((signedParams query sig).get (str "X-Amz-Date")) = some c.time := by
    rw [get_of_ne h.date (by decide), hv.parseAmzDate, parseAmzDate_formatAmzDate hc.time]
  have hscope : v.scopeDate c.time = c.scope.date := by
    rw [hv.scopeDate]
    rfl
  have hbegun' : c.time - 15 * minute ≤ v.now := Int.sub_right_le_of_le_add hbegun
  rw [presignDate_eq_ok_iff hdate hscope, get_of_ne htext (by decide), timely_iff]
  exact .inl ⟨expires, hparse, h.expires.1, h.expires.2, hbegun', hlive⟩

end Signer.Presigns

end Query

/-! ## The verifier's side -/

def Signer.verified (c : Signer) (crypto : Crypto) (sig payloadHash : Bytes) : Verified where
  accessKeyID := c.akid
  signingKey := c.key crypto
  signature := sig
  signingTime := c.time
  scope := c.scope.text
  region := c.region
  payloadHash

section RoundTrip

variable [Unicode]

/-- A request that the signer can sign for the verifier: the key is known by its secret and
    the token presented, and the list names what the request has and every `x-amz-` header. -/
structure Signer.Signable (c : Signer) (v : Verifier) (r : Request) (token : Bytes) : Prop
    extends c.Placed where
  pinned : v.region = [] ∨ c.region = v.region
  known : ∃ cred, v.lookup c.akid token = .ok cred ∧ cred.secretAccessKey = c.secret ∧
    cred.hasSigningKey = false ∧ cred.sessionToken = token
  tokens : ∀ line ∈ r.header, line.1.all isTokenByte = true
  listed : checkSignedHeaderList c.names = .ok ()
  present : ∀ name ∈ c.names, wireValues r name ≠ []
  amzSigned : ∀ key ∈ r.header.keys, hasPrefix (toLower key) amzPrefix = true → toLower key ∈ c.names

variable {rt : Runtime} {v : Verifier} {c : Signer} {r : Request} {token : Bytes}

theorem Signer.Signable.headerNames (h : c.Signable v r token) : HeaderNames c.names := by
  constructor
  · intro hnil
    have hlisted := h.listed
    rw [hnil] at hlisted
    cases hlisted
  · intro name hname
    refine ⟨(signedHeaderListLoop_ok h.listed name hname).1, ?_⟩
    have hpresent := h.present name hname
    unfold wireValues at hpresent
    split at hpresent
    · rename_i hhost
      rw [hhost]
      decide
    · split at hpresent
      · rename_i hlength
        rw [hlength]
        decide
      · obtain ⟨value, hvalue⟩ := List.exists_mem_of_ne_nil _ hpresent
        obtain ⟨line, hline, -⟩ := List.mem_map.mp hvalue
        obtain ⟨hmem, hkey⟩ := List.mem_filter.mp hline
        have htoken := h.tokens line hmem
        rw [decide_eq_true_eq.mp hkey] at htoken
        -- a name that is no token is its own key
        unfold canonicalHeaderKey at htoken
        split at htoken
        · assumption
        · exact htoken

theorem Signer.Signable.canonical (rt : Runtime) (h : c.Signable v r token) (payloadHash : Bytes) :
    ∃ canonical, canonicalRequest rt.parseAuthority r c.names [] payloadHash = .ok canonical :=
  ⟨_, (canonicalRequest_eq_ok rt.parseAuthority).mpr ⟨h.present, rfl⟩⟩

theorem requestCredential_complete (h : c.Signable v r token) (hsecret_ne : c.secret ≠ []) :
    ∃ cred, requestCredential v c.akid token = .ok cred ∧ cred.secretAccessKey = c.secret ∧
      cred.hasSigningKey = false := by
  obtain ⟨cred, hlookup, hsecret, hkey, htoken⟩ := h.known
  refine ⟨cred, ?_, hsecret, hkey⟩
  have hfound : lookupSecret v c.akid token = .ok cred := by
    simp only [lookupSecret, hlookup, hkey, hsecret]
    rw [if_neg (by simp [hsecret_ne])]
  have hvalid : validateSessionToken v c.akid cred.sessionToken token = none := by
    rw [validateSessionToken, htoken]
    split
    · rfl
    · exact if_pos rfl
  exact bind_eq_ok.mpr ⟨cred, hfound, bind_eq_ok.mpr ⟨(), by rw [hvalid]; rfl, rfl⟩⟩

theorem checkSignature_complete (hv : v.Standard) (hlisted : checkSignedHeaderList c.names = .ok ())
    {drop payloadHash canonical : Bytes}
    (hcanonical : canonicalRequest rt.parseAuthority r c.names drop payloadHash = .ok canonical)
    (cred : Credential) (hsecret : cred.secretAccessKey = c.secret) (hkey : cred.hasSigningKey = false) :
    checkSignature rt v r c.scope cred c.time c.names drop payloadHash (c.sign v.crypto canonical) =
      .ok (c.key v.crypto) := by
  have hderived : signingKey v c.scope.akid cred c.scope.date c.scope.region = .ok (c.key v.crypto) := by
    simp only [signingKey, hv.deriveKey _ cred _ _ hkey, hsecret]
    rfl
  simp only [checkSignature, bind_eq_ok, mapError_eq_ok, require_eq_ok]
  exact ⟨(), hlisted, canonical, hcanonical, _, hderived, (), rfl, rfl⟩

theorem requireSignedAmzHeaders_complete {akid : Bytes} {h : Header} {names : List Bytes}
    (hlisted : checkSignedHeaderList names = .ok ())
    (hsigned : ∀ key ∈ h.keys, hasPrefix (toLower key) amzPrefix = true → toLower key ∈ names) :
    requireSignedAmzHeaders akid h names = .ok () := by
  simp only [requireSignedAmzHeaders, require_eq_ok, List.filter_eq_nil_iff, Bool.and_eq_true,
    Bool.not_eq_true', not_and, Bool.not_eq_false]
  intro name hname hamz
  obtain ⟨key, hkey, rfl⟩ := List.mem_map.mp hname
  change (signedHeaderSet names).contains _ = true
  rw [signedHeaderSet_listed hlisted]
  exact List.contains_iff_mem.mpr (hsigned key hkey hamz)

omit [Unicode] in
theorem sign_facts (hhmac : ∀ key data, v.crypto.hmac key data ≠ []) (canonical : Bytes) : c.sign v.crypto canonical ≠ [] ∧
    ∀ b ∈ c.sign v.crypto canonical, isAlnum b = true := by
  refine ⟨fun hnil => ?_, isAlnum_of_mem_hexEncode⟩
  have hlen := congrArg List.length hnil
  rw [Signer.sign, signature, length_hexEncode] at hlen
  exact hhmac _ _ (List.length_eq_zero_iff.mp (by simpa using hlen))

/-! ### By header -/

theorem wireValues_attachHeader {name : Bytes} (hlower : toLower name = name) (hname : name ≠ str "authorization")
    (sig : Bytes) : wireValues (c.attachHeader r sig) name = wireValues r name := by
  have hvalues : ∀ other, canonicalHeaderKey other ≠ canonicalHeaderKey (str "Authorization") →
      (c.attachHeader r sig).header.valuesOf other = r.header.valuesOf other := by
    intro other hother
    rw [Signer.attachHeader_header, Header.valuesOf_eq, Header.lines_assign, if_neg hother]
    rfl
  have hkey : canonicalHeaderKey name ≠ canonicalHeaderKey (str "Authorization") := by
    intro hkey
    have hauth : canonicalHeaderKey (str "Authorization") = canonicalHeaderKey (str "authorization") := by decide
    rw [hauth] at hkey
    refine hname (canonicalHeaderKey_inj ?_ ?_ hkey)
    · rw [← hlower]
      exact noCapital_toLower name
    · unfold NoCapital
      decide +kernel
  unfold wireValues
  rw [hvalues name hkey, hvalues (str "Content-Length") (by decide)]
  rfl

theorem canonicalRequest_attachHeader {payloadHash canonical : Bytes}
    (hlisted : checkSignedHeaderList c.names = .ok ())
    (hcanonical : canonicalRequest rt.parseAuthority r c.names [] payloadHash = .ok canonical) (sig : Bytes) :
    canonicalRequest rt.parseAuthority (c.attachHeader r sig) c.names [] payloadHash = .ok canonical := by
  have hwire : ∀ name ∈ c.names, wireValues (c.attachHeader r sig) name = wireValues r name := by
    intro name hname
    obtain ⟨-, hlower, hother⟩ := signedHeaderListLoop_ok hlisted name hname
    exact wireValues_attachHeader hlower hother sig
  obtain ⟨hpresent, -⟩ := (canonicalRequest_eq_ok rt.parseAuthority).mp hcanonical
  have hsame : SameSigned rt.parseAuthority r (c.attachHeader r sig) c.names c.names [] payloadHash payloadHash := by
    refine ⟨rfl, rfl, fun _ => List.Perm.refl _, rfl, fun name hname => ?_, rfl⟩
    refine ⟨signedValue r name, canonicalHeaderValue_eq_ok.mpr ⟨hpresent name hname, rfl⟩,
      canonicalHeaderValue_eq_ok.mpr ⟨?_, ?_⟩⟩
    · rw [hwire name hname]
      exact hpresent name hname
    · rw [signedValue, signedValue, hwire name hname]
  obtain ⟨text, htext, htext'⟩ := canonicalRequest_of_sameSigned rt.parseAuthority hsame
  rw [hcanonical] at htext
  cases htext
  exact htext'

theorem requireSignedAmzHeaders_attachHeader (hc : c.Signable v r token) (akid sig : Bytes) :
    requireSignedAmzHeaders akid (c.attachHeader r sig).header c.names = .ok () := by
  apply requireSignedAmzHeaders_complete hc.listed
  intro key hkey hamz
  rw [Signer.attachHeader_header, Header.mem_keys_assign (List.cons_ne_nil _ _)] at hkey
  rcases hkey with rfl | hkey
  · rw [toLower_canonicalHeaderKey] at hamz
    exact absurd hamz (by rw [toLower_ascii (by decide +kernel)]; decide)
  · exact hc.amzSigned key hkey hamz

omit [Unicode] in
theorem get_attachHeader {name : Bytes} (hname : canonicalHeaderKey name ≠ canonicalHeaderKey (str "Authorization"))
    (sig : Bytes) : (c.attachHeader r sig).header.get name = r.header.get name := by
  rw [Signer.attachHeader, Header.get_set, if_neg hname]

omit [Unicode] in
theorem get_authorization (sig : Bytes) :
    (c.attachHeader r sig).header.get (str "Authorization") = c.authorization sig := by
  rw [Signer.attachHeader, Header.get_set, if_pos rfl]

theorem authorizationOf_attachHeader (hc : c.Signable v r token) {sig : Bytes}
    (hsig : ∀ b ∈ sig, isAlnum b = true) (hne : sig ≠ []) :
    authorizationOf rt v (c.attachHeader r sig) = .ok (c.authHeader sig) := by
  simp only [authorizationOf, bind_eq_ok, mapError_eq_ok, require_eq_ok, get_authorization]
  exact ⟨_, parseAuthorizationHeader_authorization hc.toPlaced hc.headerNames hsig hne, (), rfl, (), hc.pinned, rfl⟩

omit [Unicode] in
theorem headerDate_complete (hv : v.Standard) (hc : c.Placed)
    (hdate : r.header.get amzDateHeader = formatAmzDate c.time)
    (hskew : v.now - c.time ≤ maxClockSkew ∧ -maxClockSkew ≤ v.now - c.time) (sig : Bytes) :
    headerDate v (c.authHeader sig) r = .ok c.time := by
  have hne : formatAmzDate c.time ≠ [] := by
    intro hnil
    have hmem : ch 'T' ∈ formatAmzDate c.time := by simp [formatAmzDate]
    rw [hnil] at hmem
    cases hmem
  simp only [headerDate, bind_eq_ok, require_eq_ok, orError_eq_ok, hdate, hv.parseAmzDate, hv.scopeDate]
  exact ⟨(), hne, c.time, parseAmzDate_formatAmzDate hc.time, (), rfl, (), hskew, rfl⟩

theorem verify_attachHeader {payloadHash canonical : Bytes} (hv : v.Standard)
    (hhmac : ∀ key data, v.crypto.hmac key data ≠ []) (hsecret_ne : c.secret ≠ [])
    (hc : c.Signable v r (r.header.get (str "X-Amz-Security-Token"))) (hquery : ¬hasQueryAuth r)
    (hdate : r.header.get amzDateHeader = formatAmzDate c.time)
    (hskew : v.now - c.time ≤ maxClockSkew ∧ -maxClockSkew ≤ v.now - c.time)
    (hhash : r.header.get amzContentSha256 = payloadHash) (hhash_ne : payloadHash ≠ [])
    (hcanonical : canonicalRequest rt.parseAuthority r c.names [] payloadHash = .ok canonical) :
    ∃ vr h, verify rt v (c.attachHeader r (c.sign v.crypto canonical)) = .ok (vr, h) ∧
      vr.toVerified = c.verified v.crypto (c.sign v.crypto canonical) payloadHash := by
  obtain ⟨hsig_ne, hsig⟩ := sign_facts (c := c) hhmac canonical
  obtain ⟨cred, hcred, hsecret, hkey⟩ := requestCredential_complete hc hsecret_ne
  have hcheck := checkSignature_complete hv hc.listed
    (canonicalRequest_attachHeader hc.listed hcanonical (c.sign v.crypto canonical)) cred hsecret hkey
  generalize c.sign v.crypto canonical = sig at *
  have hmechanism : verify rt v (c.attachHeader r sig) = verifyHeaderRequest rt v (c.attachHeader r sig) := by
    have hheader : hasHeaderAuth (c.attachHeader r sig) := by
      rw [hasHeaderAuth, get_authorization]
      exact List.cons_ne_nil _ _
    have hquery' : ¬hasQueryAuth (c.attachHeader r sig) := hquery
    rw [verify, if_neg fun hboth => hquery hboth.1, if_neg hquery', if_pos hheader]
  have ht : headerDate v (c.authHeader sig) (c.attachHeader r sig) = .ok c.time :=
    headerDate_complete hv hc.toPlaced ((get_attachHeader (by decide) sig).trans hdate) hskew sig
  have hhash' : (c.attachHeader r sig).header.get amzContentSha256 = payloadHash :=
    (get_attachHeader (by decide) sig).trans hhash
  refine ⟨{ c.verified v.crypto sig payloadHash with signedHeaders := signedHeaderSet c.names },
    (c.attachHeader r sig).header, ?_, rfl⟩
  rw [hmechanism]
  simp only [verifyHeaderRequest, bind_eq_ok, require_eq_ok, hhash']
  refine ⟨_, authorizationOf_attachHeader hc hsig hsig_ne, (), requireSignedAmzHeaders_attachHeader hc _ sig, cred,
    ?_, c.time, ht, (), hhash_ne, c.key v.crypto, hcheck, rfl⟩
  rw [get_attachHeader (by decide)]
  exact hcred

/-! ### By query -/

/-- The hash of the payload that a presigned request is signed with. -/
def presignedPayloadHash (r : Request) : Bytes :=
  if r.header.get amzContentSha256 = [] then str "UNSIGNED-PAYLOAD" else r.header.get amzContentSha256

theorem verify_attachQuery {u : URL} {expires : Int} {canonical : Bytes} (hv : v.Standard)
    (hhmac : ∀ key data, v.crypto.hmac key data ≠ []) (hsecret_ne : c.secret ≠ [])
    (hc : c.Signable v r (r.url.query.get (str "X-Amz-Security-Token"))) (hheader : ¬hasHeaderAuth r)
    (hp : c.Presigns r.url.query expires)
    (hline : parseRequestURI rt.parseAuthority r.requestURI = some u) (hu : u.rawQuery = r.url.rawQuery)
    (hlive : v.now ≤ c.time + expires * second) (hbegun : c.time ≤ v.now + maxClockSkew)
    (hcanonical : canonicalRequest rt.parseAuthority r c.names [] (presignedPayloadHash r) = .ok canonical) :
    ∃ vr h, verify rt v (attachQuery r (c.sign v.crypto canonical)) = .ok (vr, h) ∧
      vr.toVerified = c.verified v.crypto (c.sign v.crypto canonical) (presignedPayloadHash r) := by
  obtain ⟨hsig_ne, hsig⟩ := sign_facts (c := c) hhmac canonical
  have hraw : r.url.rawQuery ≠ [] := by
    intro hnil
    have halgorithm := hp.algorithm
    rw [URL.query, hnil] at halgorithm
    cases halgorithm
  have hcheck := checkSignature_complete hv hc.listed
    (canonicalRequest_attachQuery hsig hline hu hraw hp.unsigned hcanonical)
  -- from here on the signature is any text of letters and digits
  generalize c.sign v.crypto canonical = sig at *
  have hquery : (attachQuery r sig).url.query = signedParams r.url.query sig := query_attachQuery hsig
  have hsignature : (signedParams r.url.query sig).get (str "X-Amz-Signature") = sig := by
    rw [Values.get, hp.valuesOf_signature]
    rfl
  have htoken : (signedParams r.url.query sig).get (str "X-Amz-Security-Token") =
      r.url.query.get (str "X-Amz-Security-Token") := by
    rw [Values.get, valuesOf_signedParams_of_ne _ _ (by decide)]
    rfl
  have hmechanism : verify rt v (attachQuery r sig) = verifyPresignedRequest rt v (attachQuery r sig) := by
    have hpresigned : hasQueryAuth (attachQuery r sig) := by
      rw [hasQueryAuth, hquery, hsignature]
      exact hsig_ne
    rw [verify, if_neg fun hboth => hheader hboth.2, if_pos hpresigned]
  obtain ⟨cred, hcred, hsecret, hkey⟩ := requestCredential_complete hc hsecret_ne
  refine ⟨{ c.verified v.crypto sig (presignedPayloadHash r) with
    signedHeaders := signedHeaderSet (c.names ++ (promoteHoistedQueryParams rt (attachQuery r sig)).2) },
    (promoteHoistedQueryParams rt (attachQuery r sig)).1, ?_, rfl⟩
  rw [hmechanism]
  simp only [verifyPresignedRequest, bind_eq_ok, require_eq_ok, hquery, hp.names hc.headerNames, hsignature, htoken]
  refine ⟨(), hp.single sig, c.scope, hp.scope hc.toPlaced hc.pinned sig, (), ?_, (), ?_, c.time,
    hp.signingDate hv hc.toPlaced hlive hbegun sig, cred, hcred, c.key v.crypto, hcheck cred hsecret hkey, rfl⟩
  · obtain ⟨name, rest, hnames⟩ := List.exists_cons_of_ne_nil hc.headerNames.1
    have hname := (hc.headerNames.2 name (hnames ▸ List.mem_cons_self)).1
    rw [hnames]
    exact hname
  · exact requireSignedAmzHeaders_complete hc.listed hc.amzSigned

/-- What a client signs is verified as what it signed: a request with a date and a payload hash
    by its header, a request with the parameters of a presigned one by its query. -/
theorem sign_verify (rt : Runtime) (v : Verifier) (c : Signer) (r : Request) (hv : v.Standard)
    (hhmac : ∀ key data, v.crypto.hmac key data ≠ []) (hsecret : c.secret ≠ []) :
    (c.Signable v r (r.header.get (str "X-Amz-Security-Token")) → ¬hasQueryAuth r →
      r.header.get amzDateHeader = formatAmzDate c.time → r.header.get amzContentSha256 ≠ [] →
      v.now - c.time ≤ maxClockSkew ∧ -maxClockSkew ≤ v.now - c.time →
      ∃ canonical, canonicalRequest rt.parseAuthority r c.names [] (r.header.get amzContentSha256) = .ok canonical ∧
        ∃ vr h, verify rt v (c.attachHeader r (c.sign v.crypto canonical)) = .ok (vr, h) ∧
          vr.toVerified = c.verified v.crypto (c.sign v.crypto canonical) (r.header.get amzContentSha256)) ∧
    ∀ u expires, c.Signable v r (r.url.query.get (str "X-Amz-Security-Token")) → ¬hasHeaderAuth r →
      c.Presigns r.url.query expires →
      parseRequestURI rt.parseAuthority r.requestURI = some u → u.rawQuery = r.url.rawQuery →
      v.now ≤ c.time + expires * second → c.time ≤ v.now + maxClockSkew →
      ∃ canonical, canonicalRequest rt.parseAuthority r c.names [] (presignedPayloadHash r) = .ok canonical ∧
        ∃ vr h, verify rt v (attachQuery r (c.sign v.crypto canonical)) = .ok (vr, h) ∧
          vr.toVerified = c.verified v.crypto (c.sign v.crypto canonical) (presignedPayloadHash r) := by
  constructor
  · intro hc hquery hdate hhash hskew
    obtain ⟨canonical, hcanonical⟩ := hc.canonical rt (r.header.get amzContentSha256)
    exact ⟨canonical, hcanonical, verify_attachHeader hv hhmac hsecret hc hquery hdate hskew rfl hhash hcanonical⟩
  · intro u expires hc hheader hp hline hu hlive hbegun
    obtain ⟨canonical, hcanonical⟩ := hc.canonical rt (presignedPayloadHash r)
    exact ⟨canonical, hcanonical,
      verify_attachQuery hv hhmac hsecret hc hheader hp hline hu hlive hbegun hcanonical⟩

end RoundTrip

/-! ## A request at noon -/

/-- A verifier whose store has this secret for every key. -/
def secretVerifier (crypto : Crypto) (secret : Bytes) : Verifier where
  region := str "us-east-1"
  now := noonVerifier.now
  crypto
  lookup _ token :=
    .ok { secretAccessKey := secret, hasSigningKey := false, secretVersion := [], sessionToken := token }
  deriveKey _ cred date region := .ok (deriveSigningKey crypto cred.secretAccessKey date region)
  parseAmzDate := parseAmzDate
  scopeDate := formatScopeDate

def noonNames : List Bytes := [str "host", str "x-amz-content-sha256", str "x-amz-date"]

def noonSigner (secret : Bytes) : Signer where
  akid := str "AK"
  secret
  region := str "us-east-1"
  time := noonVerifier.now
  names := noonNames

def noonHeader (payloadHash : Bytes) : Header :=
  [(str "X-Amz-Date", str "20240229T120000Z"), (str "X-Amz-Content-Sha256", payloadHash)]

def noonRequest (target rawQuery payloadHash : Bytes) : Request := sampleRequest target rawQuery (noonHeader payloadHash)

def unsignedPayload : Bytes := str "UNSIGNED-PAYLOAD"

theorem secretVerifier_standard (crypto : Crypto) (secret : Bytes) : (secretVerifier crypto secret).Standard :=
  ⟨rfl, rfl, fun _ _ _ _ _ => rfl⟩

theorem datable_noon : Datable noonVerifier.now :=
  ⟨by decide +kernel, by decide +kernel, by decide +kernel⟩

theorem noonRequest_signable (crypto : Crypto) (secret target rawQuery payloadHash token : Bytes) :
    let _ := asciiTables
    (noonSigner secret).Signable (secretVerifier crypto secret) (noonRequest target rawQuery payloadHash) token := by
  intro _
  have hpresent : ∀ name ∈ noonNames, wireValues (noonRequest target rawQuery payloadHash) name ≠ [] := by
    have hhost : wireValues (noonRequest target rawQuery payloadHash) (str "host") = [str "s3.example"] := rfl
    have hhash : wireValues (noonRequest target rawQuery payloadHash) (str "x-amz-content-sha256") =
        [payloadHash] := rfl
    have hdate : wireValues (noonRequest target rawQuery payloadHash) (str "x-amz-date") =
        [str "20240229T120000Z"] := rfl
    simp [noonNames, hhost, hhash, hdate]
  -- the names of the headers are the same for every payload hash
  have hsigned : ∀ key ∈ (noonHeader payloadHash).keys, hasPrefix (toLower key) amzPrefix = true →
      toLower key ∈ noonNames := by
    show ∀ key ∈ (noonHeader []).keys, _
    decide +kernel
  have htokens : ∀ name ∈ (noonHeader payloadHash).map Prod.fst, name.all isTokenByte = true := by
    show ∀ name ∈ (noonHeader []).map Prod.fst, _
    decide +kernel
  exact
    { akid_ne := show str "AK" ≠ [] by decide
      akid := show ch '/' ∉ str "AK" ∧ ch ',' ∉ str "AK" by decide
      region := show ch '/' ∉ str "us-east-1" ∧ ch ',' ∉ str "us-east-1" by decide
      time := datable_noon
      pinned := .inr rfl
      known := ⟨_, rfl, rfl, rfl, rfl⟩
      tokens := fun line hline => htokens line.1 (List.mem_map_of_mem hline)
      listed := show checkSignedHeaderList noonNames = .ok () by decide +kernel
      present := hpresent
      amzSigned := hsigned }

def noonPairs : Values := [
  (str "X-Amz-Algorithm", sigV4Algorithm),
  (str "X-Amz-Credential", (noonSigner (str "secret")).credential),
  (str "X-Amz-Date", formatAmzDate noonVerifier.now),
  (str "X-Amz-Expires", str "60"),
  (str "X-Amz-SignedHeaders", join noonNames (str ";"))]

def presignedNoonRequest : Request :=
  noonRequest (str "/bucket/key" ++ ch '?' :: encodePairs noonPairs) (encodePairs noonPairs) unsignedPayload

theorem presignedNoonRequest_presigns : (noonSigner (str "secret")).Presigns presignedNoonRequest.url.query 60 := by
  have hquery : presignedNoonRequest.url.query = noonPairs := parseQuery_encodePairs noonPairs
  rw [hquery]
  exact
    { algorithm := rfl
      credential := rfl
      date := rfl
      signedHeaders := rfl
      lifetime := ⟨str "60", rfl, by decide⟩
      expires := by decide
      token := by decide
      unsigned := rfl }

/-- One request signed either way. -/
theorem noonRequest_verified :
    let _ := asciiTables
    let v := secretVerifier constantCrypto (str "secret")
    let c := noonSigner (str "secret")
    let r := noonRequest (str "/bucket/key") [] unsignedPayload
    let r' := presignedNoonRequest
    (∃ canonical, ∃ vr h, verify sampleRuntime v (c.attachHeader r (c.sign v.crypto canonical)) = .ok (vr, h) ∧
      vr.toVerified = c.verified v.crypto (c.sign v.crypto canonical) (str "UNSIGNED-PAYLOAD")) ∧
    ∃ canonical, ∃ vr h, verify sampleRuntime v (attachQuery r' (c.sign v.crypto canonical)) = .ok (vr, h) ∧
      vr.toVerified = c.verified v.crypto (c.sign v.crypto canonical) (str "UNSIGNED-PAYLOAD") := by
  intro _ v c r r'
  have hv := secretVerifier_standard constantCrypto (str "secret")
  have hhmac : ∀ key data, v.crypto.hmac key data ≠ [] := fun _ _ => List.cons_ne_nil _ _
  obtain ⟨canonical, -, hverified⟩ := (sign_verify sampleRuntime v c r hv hhmac (by decide)).1
    (noonRequest_signable _ _ _ _ _ _) (by decide +kernel) (by decide +kernel) (by decide) (by decide +kernel)
  obtain ⟨canonical', -, hverified'⟩ := (sign_verify sampleRuntime v c r' hv hhmac (by decide)).2
    r'.url 60 (noonRequest_signable _ _ _ _ _ _) (by decide) presignedNoonRequest_presigns
    (sampleRequest_parsed (not_ctl_encodePairs noonPairs)) rfl (by decide +kernel) (by decide +kernel)
  exact ⟨⟨canonical, hverified⟩, canonical', hverified'⟩

/-- The request is signed in its header as it should be, and refused. -/
structure RefusedAtNoon [Unicode] (crypto : Crypto) (secret payloadHash : Bytes) (r : Request) (e : S3Error) :
    Prop where
  standard : (secretVerifier crypto secret).Standard
  signable : (noonSigner secret).Signable (secretVerifier crypto secret) r (r.header.get (str "X-Amz-Security-Token"))
  date : r.header.get amzDateHeader = formatAmzDate (noonSigner secret).time
  payloadHash : r.header.valuesOf amzContentSha256 = [payloadHash]
  now : (secretVerifier crypto secret).now = (noonSigner secret).time
  refused : ∀ canonical, verify sampleRuntime (secretVerifier crypto secret)
    ((noonSigner secret).attachHeader r ((noonSigner secret).sign crypto canonical)) = .error e

theorem refusedAtNoon {crypto : Crypto} {secret target rawQuery payloadHash : Bytes} {e : S3Error} (sig : Bytes)
    (hsig : ∀ canonical, (noonSigner secret).sign crypto canonical = sig) :
    let _ := asciiTables
    verify sampleRuntime (secretVerifier crypto secret)
        ((noonSigner secret).attachHeader (noonRequest target rawQuery payloadHash) sig) = .error e →
      RefusedAtNoon crypto secret payloadHash (noonRequest target rawQuery payloadHash) e := by
  intro _ hverify
  have hdate : (noonHeader []).get amzDateHeader = formatAmzDate noonVerifier.now := by decide +kernel
  refine ⟨secretVerifier_standard _ _, noonRequest_signable _ _ _ _ _ _, hdate, rfl, rfl, fun canonical => ?_⟩
  rw [hsig]
  exact hverify

def emptyCrypto : Crypto where
  sha256 _ := []
  hmac _ _ := []

def lateSigner : Signer := { noonSigner (str "secret") with time := noonVerifier.now + 1 }

theorem lateSigner_verified :
    let _ := asciiTables
    ∃ vr h, verify sampleRuntime (secretVerifier constantCrypto (str "secret"))
        (lateSigner.attachHeader (noonRequest (str "/bucket/key") [] unsignedPayload) (str "01")) = .ok (vr, h) ∧
      vr.signingTime = noonVerifier.now := by
  intro _
  have htime : ((verify sampleRuntime (secretVerifier constantCrypto (str "secret"))
      (lateSigner.attachHeader (noonRequest (str "/bucket/key") [] unsignedPayload) (str "01"))).map
        fun verified => verified.1.signingTime) = .ok noonVerifier.now := by
    decide +kernel
  generalize verify sampleRuntime _ _ = result at htime ⊢
  cases result with
  | error e => cases htime
  | ok verified => exact ⟨verified.1, verified.2, rfl, Except.ok.inj htime⟩

/-- A signature is of no use to a request that has one in its query, to a key without a
    secret, when it is empty, and with a payload hash that is; and what is verified of an instant
    between two seconds is another instant. -/
theorem noonRequest_refused :
    let _ := asciiTables
    RefusedAtNoon constantCrypto (str "secret") unsignedPayload
      (noonRequest (str "/bucket/key?X-Amz-Signature=01") (str "X-Amz-Signature=01") unsignedPayload)
      (invalidArgument (str ("Only one auth mechanism allowed; only the X-Amz-Algorithm query " ++
        "parameter, Signature query string parameter or the Authorization header should be specified"))) ∧
    RefusedAtNoon constantCrypto [] unsignedPayload (noonRequest (str "/bucket/key") [] unsignedPayload)
      (internalError .other (str "key lookup failed")) ∧
    RefusedAtNoon emptyCrypto (str "secret") unsignedPayload (noonRequest (str "/bucket/key") [] unsignedPayload)
      (headerMalformed (str "missing component.")) ∧
    RefusedAtNoon constantCrypto (str "secret") [] (noonRequest (str "/bucket/key") [] [])
      (invalidRequest (str "Missing required header for this request: x-amz-content-sha256")) ∧
    (formatAmzDate lateSigner.time = str "20240229T120000Z" ∧
      ∀ canonical, ∃ vr h,
        verify sampleRuntime (secretVerifier constantCrypto (str "secret"))
          (lateSigner.attachHeader (noonRequest (str "/bucket/key") [] unsignedPayload)
            (lateSigner.sign constantCrypto canonical)) = .ok (vr, h) ∧
        vr.signingTime = noonVerifier.now ∧ vr.signingTime ≠ lateSigner.time) := by
  intro _
  have hlate : noonVerifier.now ≠ lateSigner.time := by decide +kernel
  obtain ⟨vr, h, hverified, htime⟩ := lateSigner_verified
  exact ⟨refusedAtNoon (str "01") (fun _ => rfl) (by decide +kernel),
    refusedAtNoon (str "01") (fun _ => rfl) (by decide +kernel),
    refusedAtNoon [] (fun _ => rfl) (by decide +kernel),
    refusedAtNoon (str "01") (fun _ => rfl) (by decide +kernel),
    by decide +kernel, fun _ => ⟨vr, h, hverified, htime, htime ▸ hlate⟩⟩

end S3Gateway.Sigv4
