import S3Gateway.Library.Register
import S3Gateway.Sigv4.Coverage

/-! # The order of the query parameters

The loop of `promoteHoistedQueryParams` ranges over a map, and the client chooses the order
of the pairs the map is made of.  Each header is a register that the parameters with its
name, in any letter case, write to. -/

namespace S3Gateway.Sigv4

open Go

/-! ## One header -/

/-- The first line is not empty, so that `r.Header.Get` finds it. -/
def isSet (lines : List Bytes) : Bool := lines.headD [] != []

theorem get_eq_nil_iff (h : Header) (k : Bytes) :
    h.get k = [] ↔ isSet (Multimap.valuesOf h (canonicalHeaderKey k)) = false := by
  simp [isSet, Header.get, Header.valuesOf_eq]

theorem valuesOf_perm {q q' : Values} (h : q'.Perm q) (k : Bytes) : (q'.valuesOf k).Perm (q.valuesOf k) :=
  (h.filter _).map _

theorem keys_perm_of_perm {q q' : Values} (h : q'.Perm q) : q'.keys.Perm q.keys := by
  apply Multimap.keys_perm
  intro k
  have hperm : (Multimap.valuesOf q' k).Perm (Multimap.valuesOf q k) := valuesOf_perm h k
  exact ⟨fun hnil => List.perm_nil.mp (hnil ▸ hperm.symm), fun hnil => List.perm_nil.mp (hnil ▸ hperm)⟩

section Unicode

variable [Unicode]

def setsHeader (query : Values) (name k : Bytes) : Bool := isHoisted query k && canonicalHeaderKey k == name

def headerLines (query : Values) (k : Bytes) : List Bytes := sortStrings (query.valuesOf k)

theorem lines_promoteParam (query : Values) (state : Header × List Bytes) (k name : Bytes) :
    Multimap.valuesOf (promoteParam query state k).1 name =
      Register.write isSet (setsHeader query name) (headerLines query) (Multimap.valuesOf state.1 name) k := by
  obtain ⟨h, promoted⟩ := state
  unfold promoteParam Register.write setsHeader
  by_cases hk : isHoisted query k = true
  · by_cases hname : canonicalHeaderKey k = name
    · subst hname
      by_cases hget : h.get k = []
      · have hopen := (get_eq_nil_iff h k).mp hget
        simp [hk, hget, hopen, Header.lines_assign, headerLines]
      · have hclosed : isSet (Multimap.valuesOf h (canonicalHeaderKey k)) = true := by
          rw [← Bool.not_eq_false]
          exact fun hopen => hget ((get_eq_nil_iff h k).mpr hopen)
        simp [hk, hget, hclosed]
    · -- another header keeps its lines
      by_cases hget : h.get k = []
      · simp [hk, hget, hname, Header.lines_assign, Ne.symm hname]
      · simp [hk, hget, hname]
  · simp [hk]

theorem lines_foldl_promoteParam (query : Values) (state : Header × List Bytes) (ks : List Bytes) (name : Bytes) :
    Multimap.valuesOf (ks.foldl (promoteParam query) state).1 name =
      ks.foldl (Register.write isSet (setsHeader query name) (headerLines query))
        (Multimap.valuesOf state.1 name) := by
  induction ks generalizing state with
  | nil => rfl
  | cons k ks ih => rw [List.foldl_cons, List.foldl_cons, ih, lines_promoteParam]

theorem names_foldl_promoteParam (query : Values) (state : Header × List Bytes) (ks : List Bytes) :
    (ks.foldl (promoteParam query) state).2 = state.2 ++ (ks.filter (isHoisted query)).map toLower := by
  induction ks generalizing state with
  | nil => simp
  | cons k ks ih =>
    rw [List.foldl_cons, ih, promoteParam]
    by_cases hk : isHoisted query k = true
    · simp [hk]
    · simp [hk]

/-! ## The pairs of the query in another order -/

theorem isHoisted_congr {q q' : Values} (h : q'.Perm q) (k : Bytes) : isHoisted q' k = isHoisted q k := by
  unfold isHoisted
  rw [(valuesOf_perm h k).isEmpty_eq]

theorem promoteParam_congr {q q' : Values} (h : q'.Perm q) : promoteParam q' = promoteParam q := by
  funext state k
  unfold promoteParam
  rw [isHoisted_congr h, sortStrings_eq_of_perm (valuesOf_perm h k)]

/-! ## Order -/

/-- The same headers, line by line, and the same names. -/
def SamePromotion (a b : Header × List Bytes) : Prop :=
  (∀ name, Multimap.valuesOf a.1 name = Multimap.valuesOf b.1 name) ∧ ∀ name, name ∈ a.2 ↔ name ∈ b.2

/-- Parameters that are written to the same header agree on their values: those without an
    empty value among each other, or all of them where every one has an empty value. -/
def Uncontested (query : Values) (name : Bytes) : Prop :=
  ∀ k k', isHoisted query k = true → isHoisted query k' = true →
    canonicalHeaderKey k = name → canonicalHeaderKey k' = name →
    ([] ∉ query.valuesOf k ∧ [] ∉ query.valuesOf k' ∨
      ∀ k, isHoisted query k = true → canonicalHeaderKey k = name → [] ∈ query.valuesOf k) →
    (query.valuesOf k).Perm (query.valuesOf k')

theorem isSet_headerLines_iff {query : Values} {k : Bytes} (hk : isHoisted query k = true) :
    isSet (headerLines query k) = true ↔ [] ∉ query.valuesOf k := by
  have hsorted := sortStrings_pairwise (query.valuesOf k)
  unfold isSet headerLines
  rw [← mem_sortStrings]
  cases hlines : sortStrings (query.valuesOf k) with
  | nil => exact absurd hlines (isHoisted_values hk)
  | cons first rest =>
    rw [hlines] at hsorted
    have hleast : ∀ x ∈ rest, bytesLe first x := (List.pairwise_cons.mp hsorted).1
    -- the empty value, if there is one, comes first
    have hfirst : first = [] ↔ [] ∈ first :: rest := by
      constructor
      · intro hfirst
        rw [hfirst]
        exact List.mem_cons_self
      · intro hmem
        cases hmem with
        | head => rfl
        | tail _ hmem => exact bytesLe_nil (hleast [] hmem)
    rw [← hfirst]
    simp

theorem setsHeader_iff {query : Values} {name k : Bytes} :
    setsHeader query name k = true ↔ isHoisted query k = true ∧ canonicalHeaderKey k = name := by
  simp [setsHeader]

theorem mem_keys_of_isHoisted {query : Values} {k : Bytes} (hk : isHoisted query k = true) : k ∈ query.keys := by
  apply Multimap.mem_keys_iff.mpr
  intro hnil
  apply isHoisted_values hk
  rw [Values.valuesOf, hnil]
  rfl

/-- No parameter of a header sets it, in the register's terms and in the query's. -/
theorem open_iff (query : Values) (name : Bytes) :
    (∀ k ∈ query.keys, setsHeader query name k = true → isSet (headerLines query k) = false) ↔
      ∀ k, isHoisted query k = true → canonicalHeaderKey k = name → [] ∈ query.valuesOf k := by
  constructor
  · intro h k hk hname
    by_contra hnone
    have hset := (isSet_headerLines_iff hk).mpr hnone
    rw [h k (mem_keys_of_isHoisted hk) (setsHeader_iff.mpr ⟨hk, hname⟩)] at hset
    cases hset
  · intro h k _ hk
    obtain ⟨hk, hname⟩ := setsHeader_iff.mp hk
    rw [← Bool.not_eq_true, isSet_headerLines_iff hk, not_not]
    exact h k hk hname

theorem uncontested_iff (query : Values) (name : Bytes) :
    Register.Uncontested isSet (setsHeader query name) (headerLines query) query.keys ↔
      Uncontested query name := by
  have hlines : ∀ k k', headerLines query k = headerLines query k' ↔ (query.valuesOf k).Perm (query.valuesOf k') :=
    fun k k' => stringSorting.eq_iff
  unfold Register.Uncontested Uncontested
  constructor
  · intro h k k' hk hk' hname hname' hrank
    rw [← hlines]
    apply h k (mem_keys_of_isHoisted hk) k' (mem_keys_of_isHoisted hk') (setsHeader_iff.mpr ⟨hk, hname⟩)
      (setsHeader_iff.mpr ⟨hk', hname'⟩)
    rw [isSet_headerLines_iff hk, isSet_headerLines_iff hk', open_iff]
    exact hrank
  · intro h k _ k' _ hk hk' hrank
    obtain ⟨hk, hname⟩ := setsHeader_iff.mp hk
    obtain ⟨hk', hname'⟩ := setsHeader_iff.mp hk'
    rw [isSet_headerLines_iff hk, isSet_headerLines_iff hk', open_iff] at hrank
    rw [hlines]
    exact h k k' hk hk' hname hname' hrank

/-! ## Any order -/

/-- The loop over the keys in the given order. -/
def promoteInOrder (r : Request) (ks : List Bytes) : Header × List Bytes :=
  ks.foldl (promoteParam r.url.query) (r.header, [])

theorem promoteHoistedQueryParams_eq (rt : Runtime) {r r' : Request} (hheader : r'.header = r.header)
    (hquery : r'.url.query.Perm r.url.query) :
    promoteHoistedQueryParams rt r' = promoteInOrder r (rt.rangeKeys r'.url.query) := by
  rw [promoteHoistedQueryParams, promoteInOrder, promoteParam_congr hquery, hheader]

theorem samePromotion_iff {r : Request} {ks₁ ks₂ : List Bytes} (hperm : ks₁.Perm ks₂) :
    SamePromotion (promoteInOrder r ks₁) (promoteInOrder r ks₂) ↔
      ∀ name, Multimap.valuesOf (promoteInOrder r ks₁).1 name = Multimap.valuesOf (promoteInOrder r ks₂).1 name := by
  apply and_iff_left
  intro name
  unfold promoteInOrder
  rw [names_foldl_promoteParam, names_foldl_promoteParam, List.nil_append, List.nil_append]
  exact ((hperm.filter _).map _).mem_iff

theorem promoteInOrder_iff (r : Request) :
    (∀ ks₁ ks₂ : List Bytes, ks₁.Perm r.url.query.keys → ks₂.Perm r.url.query.keys →
        SamePromotion (promoteInOrder r ks₁) (promoteInOrder r ks₂)) ↔
      ∀ name, r.header.get name = [] → Uncontested r.url.query (canonicalHeaderKey name) := by
  have hname (name : Bytes) : (∀ ks₁ ks₂ : List Bytes, ks₁.Perm r.url.query.keys → ks₂.Perm r.url.query.keys →
      Multimap.valuesOf (promoteInOrder r ks₁).1 name = Multimap.valuesOf (promoteInOrder r ks₂).1 name) ↔
      (isSet (Multimap.valuesOf r.header name) = false → Uncontested r.url.query name) := by
    simp only [promoteInOrder, lines_foldl_promoteParam]
    rw [Register.perm_iff, uncontested_iff]
  constructor
  · intro hsame name hget
    apply (hname (canonicalHeaderKey name)).mp _ ((get_eq_nil_iff r.header name).mp hget)
    intro ks₁ ks₂ h₁ h₂
    exact (hsame ks₁ ks₂ h₁ h₂).1 _
  · intro huncontested ks₁ ks₂ h₁ h₂
    rw [samePromotion_iff (h₁.trans h₂.symm)]
    intro name
    refine (hname name).mpr ?_ ks₁ ks₂ h₁ h₂
    -- only a name in canonical form has parameters that write to it
    intro hopen k k' hk hk' hcanonical
    subst hcanonical
    exact huncontested k ((get_eq_nil_iff r.header k).mpr hopen) k k' hk hk' rfl

/-- A runtime that ranges over one map in the given order. -/
def Runtime.ranging (rt : Runtime) (q : Values) (ks : List Bytes) (h : ks.Perm q.keys) : Runtime :=
  { rt with
    rangeKeys := fun q' => if q' = q then ks else q'.keys
    rangeKeys_perm := by
      intro q'
      split
      · next heq => rw [heq]; exact h
      · exact List.Perm.refl _ }

/-- The headers and names depend on what was signed, and on nothing else, exactly when no
    header that the request leaves empty is contested. -/
theorem promoteHoistedQueryParams_orderFree_iff (r : Request) :
    (∀ (rt rt' : Runtime) (r' : Request), r'.header = r.header → r'.url.query.Perm r.url.query →
        SamePromotion (promoteHoistedQueryParams rt r) (promoteHoistedQueryParams rt' r')) ↔
      ∀ name, r.header.get name = [] → Uncontested r.url.query (canonicalHeaderKey name) := by
  rw [← promoteInOrder_iff]
  constructor
  · intro hsame ks₁ ks₂ h₁ h₂
    have hboth := hsame (sampleRuntime.ranging r.url.query ks₁ h₁) (sampleRuntime.ranging r.url.query ks₂ h₂) r
      rfl (List.Perm.refl _)
    simpa [promoteHoistedQueryParams, promoteInOrder, Runtime.ranging] using hboth
  · intro hsame rt rt' r' hheader hquery
    rw [promoteHoistedQueryParams_eq rt rfl (List.Perm.refl _), promoteHoistedQueryParams_eq rt' hheader hquery]
    exact hsame _ _ (rt.rangeKeys_perm _) ((rt'.rangeKeys_perm _).trans (keys_perm_of_perm hquery))

end Unicode

/-! ## Two letter cases -/

/-- Asks for the metadata `a` twice, under names that differ in letter case. -/
def twoCasesRequest : Request :=
  sampleRequest (str "/bucket/key?x-amz-meta-a=1&X-Amz-Meta-A=2") (str "x-amz-meta-a=1&X-Amz-Meta-A=2") []

/-- Which value takes effect is up to the iteration order. -/
theorem twoCases_orderDependent :
    let _ := asciiTables
    ∃ rt rt', (promoteHoistedQueryParams rt twoCasesRequest).1 = [(str "X-Amz-Meta-A", str "1")] ∧
      (promoteHoistedQueryParams rt' twoCasesRequest).1 = [(str "X-Amz-Meta-A", str "2")] := by
  intro _
  refine ⟨sampleRuntime, sampleRuntime.ranging twoCasesRequest.url.query
    [str "X-Amz-Meta-A", str "x-amz-meta-a"] (by decide +kernel), ?_, ?_⟩
  · decide +kernel
  · decide +kernel

end S3Gateway.Sigv4
