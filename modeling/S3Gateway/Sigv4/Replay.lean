import S3Gateway.Sigv4.Canonical

/-! # Requests that share a signature

A signature covers the values of a query key in sorted order and the values of a header
joined by commas; the handlers read the first value sent.  So a signed request can be
sent again with another first value, exactly if a key has two different values or a
header value can be cut at a comma. -/

namespace S3Gateway.Sigv4

open Go

/-! ## Collapsed values -/

def Blank (b : UInt8) : Prop := b = ch ' ' ∨ b = ch '\t'

instance : DecidablePred Blank := fun b => inferInstanceAs (Decidable (b = _ ∨ b = _))

/-- Neither trimming nor collapsing changes the value. -/
def Collapsed (v : Bytes) : Prop := collapseWhitespace v = v

theorem squeeze_append {x : UInt8} (hx : ¬Blank x) (inRun : Bool) (a b : Bytes) :
    squeeze inRun (a ++ x :: b) = squeeze inRun a ++ x :: squeeze false b := by
  induction a generalizing inRun with
  | nil => exact if_neg hx
  | cons c a ih =>
    simp only [List.cons_append, squeeze]
    split
    · split
      · exact ih true
      · rw [ih true, List.cons_append]
    · rw [ih false, List.cons_append]

theorem squeeze_squeeze (inRun : Bool) (s : Bytes) :
    squeeze inRun (squeeze inRun s) = squeeze inRun s := by
  induction s generalizing inRun with
  | nil => rfl
  | cons c s ih =>
    by_cases hc : c = ch ' ' ∨ c = ch '\t'
    · cases inRun with
      | true => simp only [squeeze, hc, if_true, ih]
      | false => simp [squeeze, hc, ih]
    · simp only [squeeze, hc, if_false, ih]

theorem squeeze_of_no_blank {s : Bytes} (h : ∀ x ∈ squeeze false s, ¬Blank x) :
    squeeze false s = s := by
  induction s with
  | nil => rfl
  | cons c s ih =>
    by_cases hc : c = ch ' ' ∨ c = ch '\t'
    · refine absurd (.inl rfl) (h (ch ' ') ?_)
      simp [squeeze, hc]
    · simp only [squeeze, hc, if_false] at h ⊢
      rw [ih fun x hx => h x (List.mem_cons_of_mem _ hx)]

theorem prefix_of_prefix_squeeze {e s : Bytes} (he : ∀ x ∈ e, ¬Blank x)
    (h : e <+: squeeze false s) : e <+: s := by
  induction e generalizing s with
  | nil => exact List.nil_prefix
  | cons x e ih =>
    cases s with
    | nil => exact h
    | cons c s =>
      by_cases hc : c = ch ' ' ∨ c = ch '\t'
      · simp only [squeeze, hc, if_true, Bool.false_eq_true, if_false] at h
        obtain ⟨rfl, -⟩ := List.cons_prefix_cons.mp h
        exact absurd (.inl rfl) (he _ List.mem_cons_self)
      · simp only [squeeze, hc, if_false] at h
        obtain ⟨rfl, htail⟩ := List.cons_prefix_cons.mp h
        exact List.cons_prefix_cons.mpr
          ⟨rfl, ih (fun y hy => he y (List.mem_cons_of_mem _ hy)) htail⟩

theorem suffix_of_suffix_squeeze {e s : Bytes} {inRun : Bool} (hne : e ≠ [])
    (he : ∀ x ∈ e, ¬Blank x) (h : e <:+ squeeze inRun s) : e <:+ s := by
  induction s generalizing inRun with
  | nil => exact h
  | cons c s ih =>
    by_cases hc : c = ch ' ' ∨ c = ch '\t'
    · cases inRun with
      | true =>
        simp only [squeeze, hc, if_true] at h
        exact (ih h).trans (List.suffix_cons c s)
      | false =>
        simp only [squeeze, hc, if_true, Bool.false_eq_true, if_false] at h
        rcases List.suffix_cons_iff.mp h with rfl | h
        · exact absurd (.inl rfl) (he _ List.mem_cons_self)
        · exact (ih h).trans (List.suffix_cons c s)
    · simp only [squeeze, hc, if_false] at h
      rcases List.suffix_cons_iff.mp h with rfl | h
      · -- all of it is the end, so there was no blank to squeeze
        rw [squeeze_of_no_blank fun x hx => he x (List.mem_cons_of_mem _ hx)]
      · exact (ih h).trans (List.suffix_cons c s)

theorem spaceEncodings_blank {e : Bytes} (he : e ∈ spaceEncodings) :
    (e ≠ [] ∧ ∀ x ∈ e, ¬Blank x) ∨ ∃ x, Blank x ∧ e = [x] := by
  have hencodings : ∀ e ∈ spaceEncodings,
      (e ≠ [] ∧ ∀ x ∈ e, ¬Blank x) ∨ e = [ch ' '] ∨ e = [ch '\t'] := by decide +kernel
  rcases hencodings e he with hno | rfl | rfl
  · exact .inl hno
  · exact .inr ⟨_, .inl rfl, rfl⟩
  · exact .inr ⟨_, .inr rfl, rfl⟩

theorem trimmed_squeeze {s : Bytes} (h : Trimmed s) : Trimmed (squeeze false s) := by
  have hblank : ∀ x, Blank x → [x] ∈ spaceEncodings := by
    rintro x (rfl | rfl) <;> decide
  -- a space of several bytes is not squeezed; a blank at either end would have been there before
  refine ⟨fun e he hstart => ?_, fun e he hsuffix => ?_⟩
  · rcases spaceEncodings_blank he with ⟨-, hno⟩ | ⟨x, hx, rfl⟩
    · exact h.first e he (prefix_of_prefix_squeeze hno hstart)
    · cases s with
      | nil => exact h.first _ he hstart
      | cons c s =>
        by_cases hc : Blank c
        · exact h.first _ (hblank c hc) ⟨s, rfl⟩
        · rw [← List.nil_append (c :: s), squeeze_append hc] at hstart
          obtain ⟨rfl, -⟩ := List.cons_prefix_cons.mp hstart
          exact hc hx
  · rcases spaceEncodings_blank he with ⟨hne, hno⟩ | ⟨x, hx, rfl⟩
    · exact h.last e he (suffix_of_suffix_squeeze hne hno hsuffix)
    · cases s using List.reverseRecOn with
      | nil => exact h.last _ he hsuffix
      | append_singleton s c =>
        by_cases hc : Blank c
        · exact h.last _ (hblank c hc) ⟨s, rfl⟩
        · rw [squeeze_append hc] at hsuffix
          obtain ⟨t, ht⟩ := hsuffix
          obtain ⟨-, hlast⟩ := List.append_inj' ht rfl
          cases hlast
          exact hc hx

theorem contains_cons (b : UInt8) (s sub : Bytes) :
    contains (b :: s) sub = (hasPrefix (b :: s) sub || contains s sub) := by
  unfold contains
  rw [List.tails_cons, List.any_cons]

theorem head_ne_of_not_contains {x c : UInt8} {p s : Bytes}
    (h : contains (c :: p ++ s) (x :: p) = false) : c ≠ x := by
  rintro rfl
  rw [List.cons_append, contains_cons, Bool.or_eq_false_iff] at h
  exact absurd (hasPrefix_append (c :: p) s) (by rw [List.cons_append, h.1]; decide)

theorem squeeze_eq_self {s : Bytes} (hspaces : contains s [ch ' ', ch ' '] = false)
    (htab : contains s [ch '\t'] = false) : squeeze false s = s := by
  induction s with
  | nil => rfl
  | cons c s ih =>
    have htail := fun sub (h : contains (c :: s) sub = false) =>
      (Bool.or_eq_false_iff.mp (contains_cons c s sub ▸ h)).2
    have hrest := ih (htail _ hspaces) (htail _ htab)
    have hctab : c ≠ ch '\t' := head_ne_of_not_contains (p := []) htab
    by_cases hc : c = ch ' '
    · subst hc
      cases s with
      | nil => rfl
      | cons d s =>
        -- no second blank follows, so the run ends here
        have hdtab : d ≠ ch '\t' := head_ne_of_not_contains (p := []) (htail _ htab)
        have hdspace : d ≠ ch ' ' := by
          rintro rfl
          exact head_ne_of_not_contains (p := [ch ' ']) hspaces rfl
        simp only [squeeze, hdtab, hdspace, or_self, if_false, true_or, if_true,
          Bool.false_eq_true] at hrest ⊢
        rw [hrest]
    · simp only [squeeze, hc, hctab, or_self, if_false, hrest]

theorem collapseWhitespace_eq (v : Bytes) : collapseWhitespace v = squeeze false (trimSpace v) := by
  unfold collapseWhitespace
  dsimp only
  split
  · rename_i hnone
    rw [Bool.and_eq_true, Bool.not_eq_true', Bool.not_eq_true'] at hnone
    exact (squeeze_eq_self hnone.1 hnone.2).symm
  · rfl

theorem collapsed_iff {v : Bytes} : Collapsed v ↔ Trimmed v ∧ squeeze false v = v := by
  unfold Collapsed
  rw [collapseWhitespace_eq]
  constructor
  · intro h
    have htrimmed : Trimmed v := h ▸ trimmed_squeeze (trimmed_trimSpace v)
    rw [trimSpace_eq_self htrimmed] at h
    exact ⟨htrimmed, h⟩
  · rintro ⟨htrimmed, hsqueeze⟩
    rw [trimSpace_eq_self htrimmed, hsqueeze]

theorem collapsed_collapseWhitespace (v : Bytes) : Collapsed (collapseWhitespace v) := by
  rw [collapsed_iff, collapseWhitespace_eq]
  exact ⟨trimmed_squeeze (trimmed_trimSpace v), squeeze_squeeze false _⟩

theorem collapsed_nil : Collapsed [] := rfl

theorem collapsed_append_comma {a b : Bytes} (ha : Collapsed a) (hb : Collapsed b) :
    Collapsed (a ++ ch ',' :: b) := by
  have hcomma : ∀ e ∈ spaceEncodings, ch ',' ∉ e := by decide
  rw [collapsed_iff] at ha hb ⊢
  refine ⟨⟨fun e he hstart => ?_, fun e he hsuffix => ?_⟩, ?_⟩
  · rcases List.prefix_or_prefix_of_prefix hstart (List.prefix_append a _) with h | h
    · exact ha.1.first e he h
    · obtain ⟨t, rfl⟩ := h
      cases t with
      | nil => exact ha.1.first _ he (by simp)
      | cons x t =>
        obtain ⟨rfl, -⟩ := List.cons_prefix_cons.mp ((List.prefix_append_right_inj a).mp hstart)
        exact hcomma _ he (by simp)
  · have htail : ch ',' :: b <:+ a ++ ch ',' :: b := List.suffix_append _ _
    rcases List.suffix_or_suffix_of_suffix hsuffix htail with h | h
    · rcases List.suffix_cons_iff.mp h with rfl | h
      · exact hcomma _ he (by simp)
      · exact hb.1.last e he h
    · exact hcomma _ he (h.subset (by simp))
  · rw [squeeze_append (by decide), ha.2, hb.2]

theorem collapsed_join {vs : List Bytes} (h : ∀ v ∈ vs, Collapsed v) :
    Collapsed (join vs [ch ',']) := by
  induction vs with
  | nil => exact collapsed_nil
  | cons v vs ih =>
    cases vs with
    | nil => simpa [join, List.intercalate_singleton] using h v (by simp)
    | cons w vs =>
      have hrest := ih fun x hx => h x (List.mem_cons_of_mem _ hx)
      rw [join, List.intercalate_cons_cons, List.append_assoc]
      exact collapsed_append_comma (h v (by simp)) hrest

/-! ## Sending another header -/

section Header

variable {parseAuthority : Bytes → Option Bytes} {r r' : Request} {name : Bytes}

/-- On a server the signed value of a header is made of the lines `Header.Get` reads. -/
theorem wireValues_served (hr : r.Served parseAuthority) (hname : name ≠ str "host") :
    wireValues r name = r.header.valuesOf name := by
  unfold wireValues
  rw [if_neg hname]
  split
  · rename_i hlength
    have hkey : canonicalHeaderKey name = canonicalHeaderKey (str "Content-Length") := by
      rw [hlength]
      decide +kernel
    have hvalues : r.header.valuesOf name = r.header.valuesOf (str "Content-Length") := by
      unfold Header.valuesOf
      rw [hkey]
    dsimp only
    rw [if_neg, hvalues]
    rintro ⟨hnone, hpos⟩
    rcases hr.lengthLine with ⟨-, hlength⟩ | ⟨v, hv, -⟩
    · omega
    · rw [hnone] at hv
      cases hv
  · rfl

/-- The value cannot be cut at a comma into values that sign to it. -/
def Uncut (v : Bytes) : Prop := ∀ a b, Collapsed a → Collapsed b → v ≠ a ++ ch ',' :: b

theorem collapse_get_of_uncut (hr : r.Served parseAuthority) (hname : name ≠ str "host")
    (hsent : wireValues r name ≠ []) (h : Uncut (signedValue r name)) :
    collapseWhitespace (r.header.get name) = signedValue r name := by
  rw [wireValues_served hr hname] at hsent
  unfold signedValue Header.get at *
  rw [wireValues_served hr hname] at *
  cases hvalues : r.header.valuesOf name with
  | nil => exact absurd hvalues hsent
  | cons v rest =>
    rw [hvalues] at h
    cases rest with
    | nil => simp [join, List.intercalate_singleton]
    | cons w rest =>
      exfalso
      have hrest : Collapsed (join ((w :: rest).map collapseWhitespace) [ch ',']) := by
        apply collapsed_join
        intro c hc
        obtain ⟨x, -, rfl⟩ := List.mem_map.mp hc
        exact collapsed_collapseWhitespace x
      exact h _ _ (collapsed_collapseWhitespace v) hrest rfl

def withLines (r : Request) (name : Bytes) (values : List Bytes) : Request :=
  { r with header := r.header.filter (·.1 ≠ canonicalHeaderKey name) ++
      values.map (canonicalHeaderKey name, ·) }

theorem valuesOf_withLines (r : Request) (name : Bytes) (values : List Bytes) (other : Bytes) :
    (withLines r name values).header.valuesOf other =
      if canonicalHeaderKey other = canonicalHeaderKey name then values
      else r.header.valuesOf other := by
  have hkept : Header.valuesOf (r.header.filter (·.1 ≠ canonicalHeaderKey name)) other =
      if canonicalHeaderKey other = canonicalHeaderKey name then [] else r.header.valuesOf other := by
    unfold Header.valuesOf
    rw [List.filter_filter]
    split
    · rename_i hkey
      rw [List.map_eq_nil_iff, List.filter_eq_nil_iff]
      simp [hkey]
    · rename_i hkey
      congr 1
      apply List.filter_congr
      intro line _
      by_cases hline : line.1 = canonicalHeaderKey other
      · simp [hline, hkey]
      · simp [hline]
  have hadded : Header.valuesOf (values.map (canonicalHeaderKey name, ·)) other =
      if canonicalHeaderKey other = canonicalHeaderKey name then values else [] := by
    unfold Header.valuesOf
    split
    · rename_i hkey
      simp [hkey, List.filter_map, Function.comp_def]
    · rename_i hkey
      simp [Ne.symm hkey, List.filter_map, Function.comp_def]
  have happend : (withLines r name values).header.valuesOf other =
      Header.valuesOf (r.header.filter (·.1 ≠ canonicalHeaderKey name)) other ++
        Header.valuesOf (values.map (canonicalHeaderKey name, ·)) other := by
    unfold withLines Header.valuesOf
    rw [List.filter_append, List.map_append]
  -- of the old lines and the new ones, one part is empty
  rw [happend, hkept, hadded]
  split <;> simp

/-- A header with a comma in its value is neither of the two `net/http` handles itself. -/
theorem ordinary_of_comma (hr : r.Served parseAuthority) (hname : name ≠ str "host")
    (hsent : wireValues r name ≠ []) (hcomma : ch ',' ∈ signedValue r name) :
    canonicalHeaderKey name ≠ str "Host" ∧ canonicalHeaderKey name ≠ str "Content-Length" := by
  have hvalues := wireValues_served hr hname
  constructor
  · intro hkey
    have hsame : r.header.valuesOf name = r.header.valuesOf (str "Host") := by
      unfold Header.valuesOf
      rw [hkey, show canonicalHeaderKey (str "Host") = str "Host" by decide]
    rw [hvalues, hsame, hr.hostRemoved] at hsent
    exact hsent rfl
  · intro hkey
    have hsame : r.header.valuesOf name = r.header.valuesOf (str "Content-Length") := by
      unfold Header.valuesOf
      rw [hkey, show canonicalHeaderKey (str "Content-Length") = str "Content-Length" by decide]
    rcases hr.lengthLine with ⟨hnone, -⟩ | ⟨v, hv, hdigits⟩
    · rw [hvalues, hsame, hnone] at hsent
      exact hsent rfl
    · unfold signedValue at hcomma
      rw [hvalues, hsame, hv, List.map_singleton, join, List.intercalate_singleton] at hcomma
      rcases mem_collapseWhitespace hcomma with h | h
      · exact absurd h (by decide)
      · exact absurd (hdigits _ h) (by decide)

theorem served_withLines (hr : r.Served parseAuthority) {values : List Bytes}
    (hhost : canonicalHeaderKey name ≠ str "Host")
    (hlength : canonicalHeaderKey name ≠ str "Content-Length")
    (hkey : newline ∉ canonicalHeaderKey name) (hvalues : ∀ v ∈ values, newline ∉ v) :
    (withLines r name values).Served parseAuthority where
  method := hr.method
  host := hr.host
  urlHost := hr.urlHost
  header := by
    intro line hline
    rcases List.mem_append.mp hline with hline | hline
    · exact hr.header line (List.mem_of_mem_filter hline)
    · obtain ⟨v, hv, rfl⟩ := List.mem_map.mp hline
      exact ⟨hkey, hvalues v hv⟩
  parsed := hr.parsed
  hostRemoved := by
    rw [valuesOf_withLines, if_neg]
    · exact hr.hostRemoved
    · rw [show canonicalHeaderKey (str "Host") = str "Host" by decide]
      exact hhost.symm
  lengthLine := by
    rw [valuesOf_withLines, if_neg]
    · exact hr.lengthLine
    · rw [show canonicalHeaderKey (str "Content-Length") = str "Content-Length" by decide]
      exact hlength.symm

/-- Lines that join to the signed value can stand in for those that were sent. -/
theorem canonicalRequest_withLines {names : List Bytes} {drop payloadHash s : Bytes}
    {values : List Bytes} (hr : r.Served parseAuthority)
    (hr' : (withLines r name values).Served parseAuthority) (hname : name ≠ str "host")
    (hne : values ≠ [])
    (hjoin : join (values.map collapseWhitespace) (str ",") = signedValue r name)
    (h : canonicalRequest parseAuthority r names drop payloadHash = .ok s) :
    canonicalRequest parseAuthority (withLines r name values) names drop payloadHash = .ok s := by
  have hsent := ((canonicalRequest_eq_ok parseAuthority).mp h).1
  -- every signed name is still sent and has the value it had
  have hsame : ∀ other ∈ names, wireValues (withLines r name values) other ≠ [] ∧
      signedValue (withLines r name values) other = signedValue r other := by
    intro other hother
    by_cases hhost : other = str "host"
    · subst hhost
      exact ⟨hsent _ hother, rfl⟩
    · have hvalues := valuesOf_withLines r name values other
      have hsent' := hsent other hother
      unfold signedValue at hjoin ⊢
      rw [wireValues_served hr' hhost, wireValues_served hr hhost, hvalues]
      rw [wireValues_served hr hname] at hjoin
      rw [wireValues_served hr hhost] at hsent'
      split
      · -- another spelling of the name reads the same lines
        rename_i hkey
        have hlines : r.header.valuesOf other = r.header.valuesOf name := by
          unfold Header.valuesOf
          rw [hkey]
        rw [hlines]
        exact ⟨hne, hjoin⟩
      · exact ⟨hsent', rfl⟩
  have hsigned : SameSigned parseAuthority r (withLines r name values) names names drop
      payloadHash payloadHash := by
    refine ⟨rfl, rfl, fun _ => List.Perm.refl _, rfl, fun other hother => ?_, rfl⟩
    obtain ⟨hsent', hvalue⟩ := hsame other hother
    exact ⟨signedValue r other, canonicalHeaderValue_eq_ok.mpr ⟨hsent other hother, rfl⟩,
      canonicalHeaderValue_eq_ok.mpr ⟨hsent', hvalue.symm⟩⟩
  obtain ⟨s', hs, hs'⟩ := canonicalRequest_of_sameSigned parseAuthority hsigned
  rw [h] at hs
  cases hs
  exact hs'

end Header

/-! ## Sending another query -/

section Query

variable {parseAuthority : Bytes → Option Bytes} {r : Request}

def withPairs (r : Request) (front : Bytes) (pairs : Values) : Request :=
  { r with
    requestURI := front ++ ch '?' :: encodePairs pairs
    url := { r.url with rawQuery := encodePairs pairs } }

theorem not_ctl_encodePairs (pairs : Values) : (encodePairs pairs).any isCTL = false := by
  rw [List.any_eq_false]
  intro b hb
  have hplain : ∀ b, isPlain b = true ∨ b = ch '=' ∨ b = ch '&' → ¬isCTL b = true :=
    forall_byte (by decide +kernel)
  apply hplain
  rcases Fields.mem_intercalate hb with hb | ⟨part, hpart, hb⟩
  · exact .inr (.inr hb)
  · obtain ⟨p, -, rfl⟩ := List.mem_map.mp hpart
    by_cases hequals : b = ch '='
    · exact .inr (.inl hequals)
    · left
      by_contra hplain
      exact not_mem_encodePair (Bool.not_eq_true _ ▸ hplain) hequals p hb

theorem query_withPairs (r : Request) (front : Bytes) (pairs : Values) :
    (withPairs r front pairs).url.query = pairs := parseQuery_encodePairs pairs

/-- A query with the same pairs in another order is as good as the one that was sent. -/
theorem replay_withPairs {names : List Bytes} {drop payloadHash s front : Bytes} {pairs : Values}
    (hr : r.Served parseAuthority) (hfront : ch '?' ∉ front)
    (huri : r.requestURI = front ++ ch '?' :: r.url.rawQuery) (hpairs : pairs.Perm r.url.query)
    (h : canonicalRequest parseAuthority r names drop payloadHash = .ok s) :
    (withPairs r front pairs).Served parseAuthority ∧
      canonicalRequest parseAuthority (withPairs r front pairs) names drop payloadHash = .ok s := by
  have hparsed : parseRequestURI parseAuthority (withPairs r front pairs).requestURI =
      some (withPairs r front pairs).url := by
    have hsent := hr.parsed
    rw [huri] at hsent
    exact (parseRequestURI_query hfront hsent (not_ctl_encodePairs pairs)).2
  have hserved : (withPairs r front pairs).Served parseAuthority :=
    ⟨⟨hr.method, hr.host, hr.urlHost, hr.header⟩, hparsed, hr.hostRemoved, hr.lengthLine⟩
  -- the values of a key are the same in another order, which the canonical query sorts
  have hquery : ∀ k, ((signedQuery r.url drop).valuesOf k).Perm
      ((signedQuery (withPairs r front pairs).url drop).valuesOf k) := by
    intro k
    unfold signedQuery
    rw [query_withPairs]
    split
    · exact ((hpairs.symm.filter _).filter _).map _
    · exact (hpairs.symm.filter _).map _
  have hsent := ((canonicalRequest_eq_ok parseAuthority).mp h).1
  have hsigned : SameSigned parseAuthority r (withPairs r front pairs) names names drop
      payloadHash payloadHash := by
    refine ⟨rfl, ?_, ?_, rfl, fun name hname => ?_, rfl⟩
    · rw [signedURL_eq hr.parsed, signedURL_eq hparsed]
      rfl
    · rw [signedURL_eq hr.parsed, signedURL_eq hparsed]
      exact hquery
    · exact ⟨signedValue r name, canonicalHeaderValue_eq_ok.mpr ⟨hsent name hname, rfl⟩,
        canonicalHeaderValue_eq_ok.mpr ⟨hsent name hname, rfl⟩⟩
  obtain ⟨s', hs, hs'⟩ := canonicalRequest_of_sameSigned parseAuthority hsigned
  rw [h] at hs
  cases hs
  exact ⟨hserved, hs'⟩

end Query

/-! ## Replays -/

section Replay

variable (parseAuthority : Bytes → Option Bytes)

/-- The handlers read the same first values of the query keys and of the signed headers. -/
structure ReadAlike (keys names : List Bytes) (r r' : Request) : Prop where
  query : ∀ k ∈ keys, r'.url.query.get k = r.url.query.get k
  header : ∀ name ∈ names,
    collapseWhitespace (r'.header.get name) = collapseWhitespace (r.header.get name)

/-- Nothing is left to choose about what is read first: no key has two different values,
    no value of a signed header can be cut. -/
structure Unambiguous (keys names : List Bytes) (r : Request) : Prop where
  query : ∀ k ∈ keys, ∀ v ∈ r.url.query.valuesOf k, v = r.url.query.get k
  header : ∀ name ∈ names, name ≠ str "host" → Uncut (signedValue r name)

variable {parseAuthority} {keys names names' : List Bytes} {r r' : Request}
  {drop payloadHash payloadHash' s : Bytes}

theorem get_eq_of_perm {q q' : Values} {k : Bytes} (hperm : (q.valuesOf k).Perm (q'.valuesOf k))
    (h : ∀ v ∈ q.valuesOf k, v = q.get k) : q'.get k = q.get k := by
  unfold Values.get at h ⊢
  cases hvalues : q'.valuesOf k with
  | nil =>
    rw [hvalues] at hperm
    rw [hperm.eq_nil]
  | cons v rest =>
    rw [hvalues] at hperm
    exact h v (hperm.symm.subset List.mem_cons_self)

theorem readAlike_of_unambiguous (hdrop : drop ∉ keys) (hr : r.Served parseAuthority)
    (hhash : newline ∉ payloadHash)
    (h : canonicalRequest parseAuthority r names drop payloadHash = .ok s)
    (hone : Unambiguous keys names r) (hr' : r'.Served parseAuthority)
    (hhash' : newline ∉ payloadHash')
    (h' : canonicalRequest parseAuthority r' names' drop payloadHash' = .ok s) :
    ReadAlike keys names r r' := by
  have hsame := sameSigned_of_canonicalRequest parseAuthority hr.toReceived hr'.toReceived hhash
    hhash' h h'
  constructor
  · intro k hk
    have hperm := hsame.query k
    have hne : k ≠ drop := fun hkd => hdrop (hkd ▸ hk)
    rw [signedURL_eq hr.parsed, signedURL_eq hr'.parsed, valuesOf_signedQuery hne,
      valuesOf_signedQuery hne] at hperm
    exact get_eq_of_perm hperm (hone.query k hk)
  · intro name hname
    -- `net/http` takes the host out of the header, so neither request has one there
    by_cases hhost : name = str "host"
    · have hnone : ∀ r : Request, r.Served parseAuthority → r.header.get name = [] := by
        intro r hr
        have hkey : r.header.valuesOf name = r.header.valuesOf (str "Host") := by
          unfold Header.valuesOf
          rw [hhost, show canonicalHeaderKey (str "host") = canonicalHeaderKey (str "Host") by decide]
        unfold Header.get
        rw [hkey, hr.hostRemoved]
        rfl
      rw [hnone r hr, hnone r' hr']
    · obtain ⟨v, hv, hv'⟩ := hsame.headers name hname
      obtain ⟨hsent, rfl⟩ := canonicalHeaderValue_eq_ok.mp hv
      obtain ⟨hsent', hvalue⟩ := canonicalHeaderValue_eq_ok.mp hv'
      have huncut := hone.header name hname hhost
      rw [collapse_get_of_uncut hr hhost hsent huncut,
        collapse_get_of_uncut hr' hhost hsent' (hvalue ▸ huncut), hvalue]

/-- What every request with the same canonical request reads, as the handlers see it. -/
def ReplaysAlike (parseAuthority : Bytes → Option Bytes) (keys names : List Bytes)
    (drop s : Bytes) (r : Request) : Prop :=
  ∀ r' names' payloadHash', r'.Served parseAuthority → newline ∉ payloadHash' →
    canonicalRequest parseAuthority r' names' drop payloadHash' = .ok s → ReadAlike keys names r r'

theorem query_unambiguous (hr : r.Served parseAuthority) (hhash : newline ∉ payloadHash)
    (h : canonicalRequest parseAuthority r names drop payloadHash = .ok s)
    (hreplay : ReplaysAlike parseAuthority keys names drop s r) :
    ∀ k ∈ keys, ∀ v ∈ r.url.query.valuesOf k, v = r.url.query.get k := by
  intro k hk v hv
  obtain ⟨⟨k', v'⟩, hpair, hvalue⟩ := List.mem_map.mp hv
  obtain ⟨hmem, hkey⟩ := List.mem_filter.mp hpair
  obtain rfl : k' = k := of_decide_eq_true hkey
  obtain rfl : v' = v := hvalue
  have hquery : r.url.rawQuery ≠ [] := by
    intro hempty
    unfold URL.query at hmem
    rw [hempty] at hmem
    exact absurd hmem (by simp [parseQuery, split, parsePair])
  obtain ⟨front, hfront, huri⟩ := parseRequestURI_front hr.parsed hquery
  obtain ⟨hserved, hcanonical⟩ := replay_withPairs hr hfront huri
    (List.perm_cons_erase hmem).symm h
  have hget := (hreplay _ _ _ hserved hhash hcanonical).query k' hk
  rw [query_withPairs] at hget
  rw [← hget]
  simp [Values.get, Values.valuesOf, Multimap.valuesOf]

theorem header_unambiguous (hr : r.Served parseAuthority) (hhash : newline ∉ payloadHash)
    (h : canonicalRequest parseAuthority r names drop payloadHash = .ok s)
    (hreplay : ReplaysAlike parseAuthority keys names drop s r) :
    ∀ name ∈ names, name ≠ str "host" → Uncut (signedValue r name) := by
  intro name hname hhost a b ha hb hcut
  have hsent := ((canonicalRequest_eq_ok parseAuthority).mp h).1 name hname
  obtain ⟨hkeyHost, hkeyLength⟩ := ordinary_of_comma hr hhost hsent (by simp [hcut])
  have hnewline := newline_not_mem_signedValue hr.toReceived name
  have hkey : newline ∉ canonicalHeaderKey name := by
    rw [wireValues_served hr hhost] at hsent
    obtain ⟨v, hv⟩ := List.exists_mem_of_ne_nil _ hsent
    obtain ⟨line, hline, -⟩ := List.mem_map.mp hv
    obtain ⟨hmem, hkey⟩ := List.mem_filter.mp hline
    rw [← of_decide_eq_true hkey]
    exact (hr.header line hmem).1
  -- the first line sent is read, whatever lines that join to the value are sent
  have hfirst : ∀ v rest, (∀ x ∈ v :: rest, Collapsed x ∧ newline ∉ x) →
      join (v :: rest) (str ",") = signedValue r name →
      v = collapseWhitespace (r.header.get name) := by
    intro v rest hvalues hjoin
    have hmap : (v :: rest).map collapseWhitespace = v :: rest := by
      have hid : (v :: rest).map collapseWhitespace = (v :: rest).map id :=
        List.map_congr_left fun x hx => (hvalues x hx).1
      rw [hid, List.map_id]
    have hserved := served_withLines hr hkeyHost hkeyLength hkey fun x hx => (hvalues x hx).2
    have hcanonical := canonicalRequest_withLines hr hserved hhost (List.cons_ne_nil v rest)
      (by rw [hmap, hjoin]) h
    have hread := (hreplay _ _ _ hserved hhash hcanonical).header name hname
    rw [← hread, Header.get, valuesOf_withLines, if_pos rfl]
    exact (hvalues v List.mem_cons_self).1.symm
  have hwhole := hfirst (signedValue r name) [] (by
    intro x hx
    obtain rfl := List.mem_singleton.mp hx
    exact ⟨hcut ▸ collapsed_append_comma ha hb, hnewline⟩)
    (by rw [join, List.intercalate_singleton])
  have hcuts := hfirst a [b] (by
    intro x hx
    rw [hcut] at hnewline
    simp only [List.mem_append, List.mem_cons, not_or] at hnewline
    simp only [List.mem_cons, List.not_mem_nil, or_false] at hx
    rcases hx with rfl | rfl
    · exact ⟨ha, hnewline.1⟩
    · exact ⟨hb, hnewline.2.2⟩)
    (by rw [join, List.intercalate_cons_cons, List.intercalate_singleton, hcut, List.append_assoc]
        rfl)
  have hlength := congrArg List.length (hcuts.trans hwhole.symm)
  rw [hcut, List.length_append, List.length_cons] at hlength
  omega

/-- Whoever holds a signed request can change what is read first exactly if the request
    leaves a choice. -/
theorem replaysAlike_iff (keys names : List Bytes) (r : Request) (drop payloadHash s : Bytes)
    (hdrop : drop ∉ keys) (hr : r.Served parseAuthority) (hhash : newline ∉ payloadHash)
    (h : canonicalRequest parseAuthority r names drop payloadHash = .ok s) :
    ReplaysAlike parseAuthority keys names drop s r ↔ Unambiguous keys names r := by
  constructor
  · intro hreplay
    exact ⟨query_unambiguous hr hhash h hreplay, header_unambiguous hr hhash h hreplay⟩
  · intro hone r' names' payloadHash' hr' hhash' h'
    exact readAlike_of_unambiguous hdrop hr hhash h hone hr' hhash' h'

end Replay

theorem uncut_of_not_mem {v : Bytes} (h : ch ',' ∉ v) : Uncut v := by
  rintro a b - - rfl
  simp at h

theorem sampleRequest_served {requestURI rawQuery : Bytes} {header : Header}
    (hparsed : parseRequestURI some requestURI = some { path := str "/bucket/key", rawQuery })
    (hheader : ∀ line ∈ header, newline ∉ line.1 ∧ newline ∉ line.2)
    (hhost : header.valuesOf (str "Host") = [])
    (hlength : header.valuesOf (str "Content-Length") = []) :
    (sampleRequest requestURI rawQuery header).Served some :=
  ⟨sampleRequest_received _ _ hheader, hparsed, hhost, .inl ⟨hlength, Int.le_refl 0⟩⟩

/-- One version, one line for each header: nothing can be changed. -/
theorem oneVersion_replaysAlike :
    ReplaysAlike some [str "versionId"] [str "host", str "x-amz-date"] []
      (str "GET\n/bucket/key\nversionId=a\nhost:s3.example\nx-amz-date:1\n\nhost;x-amz-date\nhash")
      (sampleRequest (str "/bucket/key?versionId=a") (str "versionId=a")
        [(str "X-Amz-Date", str "1")]) := by
  refine (replaysAlike_iff _ _ _ _ (str "hash") _ (by decide)
    (sampleRequest_served (by decide +kernel) (by decide) (by decide +kernel) (by decide +kernel))
    (by decide) (by decide +kernel)).mpr ⟨by decide +kernel, ?_⟩
  intro name hname hhost
  apply uncut_of_not_mem
  revert name
  decide +kernel

/-- The two versions of a query in another order, and a copy source cut at its comma: the
    signature covers both, and another version or another object is read. -/
theorem replay_reads_other_values :
    let names := [str "host", str "x-amz-copy-source"]
    let r := sampleRequest (str "/bucket/key?versionId=a&versionId=b")
      (str "versionId=a&versionId=b") [(str "X-Amz-Copy-Source", str "/src/x,y")]
    let r' := sampleRequest (str "/bucket/key?versionId=b&versionId=a")
      (str "versionId=b&versionId=a")
      [(str "X-Amz-Copy-Source", str "/src/x"), (str "X-Amz-Copy-Source", str "y")]
    r.Served some ∧ r'.Served some ∧
      (∃ s, canonicalRequest some r names [] (str "hash") = .ok s ∧
        canonicalRequest some r' names [] (str "hash") = .ok s) ∧
      r.url.query.get (str "versionId") = str "a" ∧ r'.url.query.get (str "versionId") = str "b" ∧
      r.header.get (str "x-amz-copy-source") = str "/src/x,y" ∧
      r'.header.get (str "x-amz-copy-source") = str "/src/x" := by
  refine ⟨sampleRequest_served (by decide +kernel) (by decide) (by decide +kernel)
    (by decide +kernel), sampleRequest_served (by decide +kernel) (by decide) (by decide +kernel)
    (by decide +kernel), ⟨str "GET\n/bucket/key\nversionId=a&versionId=b\nhost:s3.example\nx-amz-copy-source:/src/x,y\n\nhost;x-amz-copy-source\nhash",
      by decide +kernel, by decide +kernel⟩, by decide +kernel, by decide +kernel,
    by decide +kernel, by decide +kernel⟩

end S3Gateway.Sigv4
