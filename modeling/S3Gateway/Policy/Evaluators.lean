import S3Gateway.Policy.Decide

/-! # The evaluators refine `Decide`

What the precomputed evaluators answer for a resource is what `Decide` answers
for it, for every parsed policy.  The user policy of a requester is here as well:
it is the same scan with an implicit deny. -/

namespace S3Gateway.Policy

open Go

/-! ## Evaluator answers over flattened patterns -/

theorem AllowEvaluator.allowsRunes_eq (e : AllowEvaluator) (resource : List Rune) :
    e.allowsRunes resource = e.allowResources.any (matchRunes · resource) := by
  rw [AllowEvaluator.allowsRunes]
  split
  · rename_i hzero
    rw [List.eq_nil_of_length_eq_zero hzero]
    rfl
  · rw [matchAnyRunes_eq_any]

theorem DenyEvaluator.deniesRunes_eq (e : DenyEvaluator) (resource : List Rune) :
    e.deniesRunes resource = e.denyResources.any (matchRunes · resource) := by
  rw [DenyEvaluator.deniesRunes]
  split
  · rename_i hzero
    rw [List.eq_nil_of_length_eq_zero hzero]
    rfl
  · rw [matchAnyRunes_eq_any]

theorem DenyEvaluator.denyingStatement_eq (e : DenyEvaluator) (resource : List Rune) :
    e.denyingStatement resource =
      (((e.denyResources.findIdx? (matchRunes · resource)).bind
        (e.denyStatements[·]?)).map Int.ofNat).getD (-1) := by
  rw [DenyEvaluator.denyingStatement]
  split
  · rename_i i h
    have hi : i < e.denyStatements.length := by
      obtain ⟨hlt, -⟩ := List.findIdx?_eq_some_iff_getElem.mp h
      rw [e.aligned]
      exact hlt
    rw [matchIndexRunes] at h
    simp [h, List.getElem?_eq_getElem hi]
  · rename_i h
    rw [matchIndexRunes] at h
    simp [h]

theorem any_patterns {keep : Statement → Bool} {sts : List Statement} {resource : Bytes} :
    (FirstMatch.patterns keep Statement.resourceRunes sts).any (matchRunes · (runes resource)) =
      sts.any fun st => keep st && st.resource.any (match_ · resource) := by
  rw [Bool.eq_iff_iff, List.any_eq_true, List.any_eq_true]
  constructor
  · rintro ⟨pat, hpat, hmatch⟩
    obtain ⟨st, hst, hkeep, hin⟩ := FirstMatch.mem_patterns.mp hpat
    refine ⟨st, hst, ?_⟩
    rw [hkeep, Bool.true_and, ← matchAnyRunes_patternRunes, matchAnyRunes_eq_any]
    exact List.any_eq_true.mpr ⟨pat, hin, hmatch⟩
  · rintro ⟨st, hst, hboth⟩
    obtain ⟨hkeep, hany⟩ := Bool.and_eq_true_iff.mp hboth
    rw [← matchAnyRunes_patternRunes, matchAnyRunes_eq_any] at hany
    obtain ⟨pat, hin, hmatch⟩ := List.any_eq_true.mp hany
    exact ⟨pat, FirstMatch.mem_patterns.mpr ⟨st, hst, hkeep, hin⟩, hmatch⟩

/-! ## Parsed policies -/

namespace ParsedPolicy

variable [Unicode] (p : ParsedPolicy) (principal action : Bytes) (rc : RequestContext)

/-- `Decide` on a policy it cannot fail on. -/
def decide (resource : Bytes) : Decision :=
  (p.policy.decide principal action resource rc).get <| by
    rw [decide_eq_scan principal action resource rc p.wellFormed]
    rfl

def denyEvaluatorFor : DenyEvaluator :=
  (p.policy.denyEvaluatorFor principal action rc).get <| by
    obtain ⟨e, he, -⟩ := denyEvaluatorFor_eq principal action rc p.wellFormed
    rw [he]
    rfl

def allowEvaluatorFor : AllowEvaluator :=
  (p.policy.allowEvaluatorFor principal action rc).get <| by
    rw [Policy.allowEvaluatorFor, allowLoop_eq principal action rc p.wellFormed]
    rfl

variable (resource : Bytes)

theorem decide_eq :
    p.decide principal action rc resource =
      decisionOf (FirstMatch.scan (·.denies principal action resource rc)
        (·.grants principal action resource rc) 0 p.policy.statement .unmatched) := by
  simp only [decide, decide_eq_scan principal action resource rc p.wellFormed, Option.get_some]

theorem decide_deny_iff :
    (p.decide principal action rc resource).effect = .deny ↔
      ∃ st ∈ p.policy.statement, st.denies principal action resource rc = true := by
  rw [decide_eq]
  refine Iff.trans ?_ (FirstMatch.scan_denied_iff (·.denies principal action resource rc)
    (·.grants principal action resource rc) p.policy.statement)
  cases FirstMatch.scan (·.denies principal action resource rc)
    (·.grants principal action resource rc) 0 p.policy.statement .unmatched <;> simp [decisionOf]

theorem decide_deny_statement (h : (p.decide principal action rc resource).effect = .deny) :
    ∃ i < p.policy.statement.length, (p.decide principal action rc resource).statement = (i : Int) := by
  rw [decide_eq, FirstMatch.scan_eq] at h ⊢
  cases hfirst : p.policy.statement.findIdx? (·.denies principal action resource rc) with
  | some i =>
    obtain ⟨hlt, -⟩ := List.findIdx?_eq_some_iff_getElem.mp hfirst
    exact ⟨i, hlt, by simp [decisionOf]⟩
  | none =>
    simp only [hfirst, FirstMatch.settle] at h
    split at h
    · simp [decisionOf] at h
    · simp [decisionOf] at h

theorem decide_allow_iff :
    (p.decide principal action rc resource).effect = .allow ↔
      (∃ st ∈ p.policy.statement, st.grants principal action resource rc = true) ∧
        ∀ st ∈ p.policy.statement, st.denies principal action resource rc = false := by
  rw [decide_eq, ← FirstMatch.scan_allowed_iff]
  cases FirstMatch.scan (·.denies principal action resource rc)
    (·.grants principal action resource rc) 0 p.policy.statement .unmatched <;> simp [decisionOf]

theorem denyEvaluatorFor_fields :
    (p.denyEvaluatorFor principal action rc).denyResources =
        FirstMatch.patterns (·.deniesUnder principal action rc) Statement.resourceRunes
          p.policy.statement ∧
      (p.denyEvaluatorFor principal action rc).denyStatements =
        FirstMatch.sources (·.deniesUnder principal action rc) Statement.resourceRunes 0
          p.policy.statement := by
  obtain ⟨e, he, hres, hsrc⟩ := denyEvaluatorFor_eq principal action rc p.wellFormed
  simp only [denyEvaluatorFor, he, Option.get_some]
  exact ⟨hres, hsrc⟩

theorem denies_eq :
    (p.denyEvaluatorFor principal action rc).denies resource =
      p.policy.statement.any (·.denies principal action resource rc) := by
  rw [DenyEvaluator.denies, DenyEvaluator.deniesRunes_eq,
    (p.denyEvaluatorFor_fields principal action rc).1, any_patterns]
  simp only [Statement.denies, Statement.deniesUnder, Statement.covers, Bool.and_assoc]

theorem denies_iff :
    (p.denyEvaluatorFor principal action rc).denies resource = true ↔
      (p.decide principal action rc resource).effect = .deny := by
  rw [denies_eq, decide_deny_iff, List.any_eq_true]

theorem denyingStatement_eq :
    (p.denyEvaluatorFor principal action rc).denyingStatement (runes resource) =
      if (p.decide principal action rc resource).effect = .deny then
        (p.decide principal action rc resource).statement else -1 := by
  obtain ⟨hres, hsrc⟩ := p.denyEvaluatorFor_fields principal action rc
  have hhit : ∀ st : Statement, (st.deniesUnder principal action rc &&
      st.resourceRunes.any (matchRunes · (runes resource))) =
        st.denies principal action resource rc := by
    intro st
    rw [Statement.resourceRunes, ← matchAnyRunes_eq_any, matchAnyRunes_patternRunes]
    simp only [Statement.denies, Statement.deniesUnder, Statement.covers, Bool.and_assoc]
  rw [DenyEvaluator.denyingStatement_eq, hres, hsrc, FirstMatch.source_of_first_hit,
    decide_eq, FirstMatch.scan_eq]
  simp only [hhit]
  cases p.policy.statement.findIdx? (·.denies principal action resource rc) with
  | some j => simp [decisionOf]
  | none =>
    -- without a Deny the scan settles on an Allow or on nothing
    have hne : (decisionOf (FirstMatch.settle (·.grants principal action resource rc) 0
        p.policy.statement .unmatched)).effect ≠ .deny := by
      rw [FirstMatch.settle]
      split <;> simp [decisionOf]
    rw [if_neg hne]
    rfl

theorem allowResources_eq :
    (p.allowEvaluatorFor principal action rc).allowResources =
      FirstMatch.patterns (·.grantsUnder principal action rc) Statement.resourceRunes p.policy.statement := by
  simp [allowEvaluatorFor, Policy.allowEvaluatorFor, allowLoop_eq principal action rc p.wellFormed]

theorem allows_eq :
    (p.allowEvaluatorFor principal action rc).allows resource =
      p.policy.statement.any (·.grants principal action resource rc) := by
  rw [AllowEvaluator.allows, AllowEvaluator.allowsRunes_eq, p.allowResources_eq, any_patterns]
  simp only [Statement.grants, Statement.grantsUnder, Statement.covers, Bool.and_assoc]

theorem allows_and_not_denies_iff :
    (p.allowEvaluatorFor principal action rc).allows resource = true ∧
        (p.denyEvaluatorFor principal action rc).denies resource = false ↔
      (p.decide principal action rc resource).effect = .allow := by
  rw [allows_eq, denies_eq, decide_allow_iff, List.any_eq_true, List.any_eq_false]
  simp only [Bool.not_eq_true]

end ParsedPolicy

theorem DenyEvaluator.not_denies_of_alwaysAllows {e : DenyEvaluator} (h : e.alwaysAllows = true)
    (resource : Bytes) : e.denies resource = false := by
  have hzero : e.denyResources.length = 0 := by simpa [DenyEvaluator.alwaysAllows] using h
  simp [DenyEvaluator.denies, DenyEvaluator.deniesRunes, hzero]

theorem AllowEvaluator.not_allows_of_alwaysDenies {e : AllowEvaluator} (h : e.alwaysDenies = true)
    (resource : Bytes) : e.allows resource = false := by
  have hzero : e.allowResources.length = 0 := by simpa [AllowEvaluator.alwaysDenies] using h
  simp [AllowEvaluator.allows, AllowEvaluator.allowsRunes, hzero]

/-- On a parsed policy the three traversals succeed and agree on every resource,
    the attribution of a denial included, and the shortcuts are sound. -/
theorem evaluators_agree_of_parse [Unicode] {ε : Type} (d : Dialect)
    (unmarshal : Bytes → Option JsonDocument) (bucket text : Bytes)
    (check : Option (Bytes → Option ε)) (p : Policy)
    (h : d.parse unmarshal bucket text check = .ok p)
    (principal action : Bytes) (rc : RequestContext) :
    ∃ deny allow, p.denyEvaluatorFor principal action rc = some deny ∧
      p.allowEvaluatorFor principal action rc = some allow ∧
      (∀ resource, ∃ dec, p.decide principal action resource rc = some dec ∧
        (deny.denies resource = true ↔ dec.effect = .deny) ∧
        (dec.effect = .deny → deny.denyingStatement (runes resource) = dec.statement) ∧
        (dec.effect ≠ .deny → deny.denyingStatement (runes resource) = -1) ∧
        (allow.allows resource = true ∧ deny.denies resource = false ↔ dec.effect = .allow) ∧
        (deny.alwaysAllows = true → deny.denies resource = false ∧ dec.effect ≠ .deny) ∧
        (allow.alwaysDenies = true → allow.allows resource = false ∧ dec.effect ≠ .allow)) := by
  let q := ParsedPolicy.ofParse h
  refine ⟨q.denyEvaluatorFor principal action rc, q.allowEvaluatorFor principal action rc,
    (Option.some_get _).symm, (Option.some_get _).symm, fun resource => ?_⟩
  have hdeny := q.denies_iff principal action rc resource
  have hallow := q.allows_and_not_denies_iff principal action rc resource
  have hindex := q.denyingStatement_eq principal action rc resource
  refine ⟨q.decide principal action rc resource, (Option.some_get _).symm, hdeny, fun hd => ?_,
    fun hd => ?_, hallow, fun halways => ?_, fun halways => ?_⟩
  · rw [hindex, if_pos hd]
  · rw [hindex, if_neg hd]
  · have hnot := DenyEvaluator.not_denies_of_alwaysAllows halways resource
    exact ⟨hnot, fun hd => by rw [hdeny.mpr hd] at hnot; cases hnot⟩
  · have hnot := AllowEvaluator.not_allows_of_alwaysDenies halways resource
    exact ⟨hnot, fun ha => by rw [(hallow.mpr ha).1] at hnot; cases hnot⟩

/-- One grant on every object, one denial under `b/log/`. -/
def sampleDocument : JsonDocument where
  version := str "2012-10-17"
  statement := [
    { sid := str "open", effect := str "Allow", principal := some (.string (str "*")),
      notPrincipal := none, action := some (.string (str "s3:GetObject")),
      resource := some (.array [.string (str "b/*"), .string (str "b")]), condition := none },
    { sid := [], effect := str "Deny", principal := none,
      notPrincipal := some (.object [(str "S3RP", .array [.string (str "ta/*")])]),
      action := some (.string (str "S3:*")), resource := some (.string (str "b/log/?")),
      condition := some (.object [(str "NotIpAddress",
        .object [(str "aws:SourceIp", .string (str "10.0.0.0/8"))])]) }]

def sampleText : Bytes := List.flatMap str [
  "\x7b\"Version\":", "\"2012-10-17\",", "\"Statement\":[",
  "\x7b\"Sid\":\"open\",", "\"Effect\":\"Allow\",", "\"Principal\":\"*\",", "\"Action\":", "\"s3:GetObject\",",
  "\"Resource\":", "[\"b/*\",\"b\"]\x7d,",
  "\x7b\"Effect\":\"Deny\",", "\"NotPrincipal\":", "\x7b\"S3RP\":[\"ta/*\"]\x7d,", "\"Action\":\"S3:*\",",
  "\"Resource\":", "\"b/log/?\",", "\"Condition\":", "\x7b\"NotIpAddress\":", "\x7b\"aws:SourceIp\":",
  "\"10.0.0.0/8\"\x7d\x7d\x7d]\x7d"]

def samplePolicy : Policy where
  version := str "2012-10-17"
  statement := [
    { sid := str "open", effect := str "Allow", principal := some { all := true, users := [] },
      notPrincipal := none, action := [str "s3:GetObject"], resource := [str "b/*", str "b"],
      condition := none },
    { sid := [], effect := str "Deny", principal := none,
      notPrincipal := some { all := false, users := [str "ta/*"] }, action := [str "S3:*"],
      resource := [str "b/log/?"],
      condition := some { ipAddress := [], notIPAddress := [str "10.0.0.0/8"] } }]

theorem samplePolicy_parsed : let _ := asciiTables
    ({} : Dialect).parse (decodesOnly sampleText sampleDocument) (str "b") sampleText
      (none : Option (Bytes → Option Empty)) = .ok samplePolicy := by
  intro _
  rw [Dialect.parse_decoded _ (by decide +kernel) (decodesOnly_self _ _)]
  rfl

theorem samplePolicy_evaluators_agree :
    let _ := asciiTables
    ({} : Dialect).parse (decodesOnly sampleText sampleDocument) (str "b") sampleText
        (none : Option (Bytes → Option Empty)) = .ok samplePolicy ∧
      ∃ deny allow,
        samplePolicy.denyEvaluatorFor (str "tb/bob") (str "s3:GetObject") ⟨.zero⟩ = some deny ∧
        samplePolicy.allowEvaluatorFor (str "tb/bob") (str "s3:GetObject") ⟨.zero⟩ = some allow ∧
        deny.denies (str "b/log/1") = true ∧
        deny.denyingStatement (runes (str "b/log/1")) = 1 ∧
        allow.allows (str "b/x") = true ∧ deny.denies (str "b/x") = false := by
  let _ := asciiTables
  obtain ⟨deny, allow, hd, ha, hall⟩ := evaluators_agree_of_parse _ _ _ _ _ _ samplePolicy_parsed
    (str "tb/bob") (str "s3:GetObject") ⟨.zero⟩
  have hlog : samplePolicy.decide (str "tb/bob") (str "s3:GetObject") (str "b/log/1") ⟨.zero⟩ =
      some ⟨.deny, 1⟩ := by rfl
  have hx : samplePolicy.decide (str "tb/bob") (str "s3:GetObject") (str "b/x") ⟨.zero⟩ =
      some ⟨.allow, 0⟩ := by rfl
  obtain ⟨dec, hdec, hdenies, hindex, -⟩ := hall (str "b/log/1")
  cases hlog.symm.trans hdec
  obtain ⟨dec, hdec, -, -, -, hallows, -⟩ := hall (str "b/x")
  cases hx.symm.trans hdec
  exact ⟨samplePolicy_parsed, deny, allow, hd, ha, hdenies.mpr rfl, hindex rfl, hallows.mpr rfl⟩

end S3Gateway.Policy
