import S3Gateway.Policy.Evaluators

/-! # A source that is not known

An unknown source fails `IpAddress` and passes `NotIpAddress`, whatever the effect of the
statement.  This restricts in an Allow with `IpAddress` and in a Deny with `NotIpAddress`; in
the two other combinations it lets through what a known source is refused. -/

set_option linter.dupNamespace false

namespace S3Gateway.Policy

open Go

def unknownSource : RequestContext := ⟨.zero⟩

/-- The statement has an `IpAddress` operator. -/
def Statement.usesIPAddress (st : Statement) : Bool := st.condition.any (!·.ipAddress.isEmpty)

/-! ## One condition -/

/-- On an unknown source a condition holds unless it has an `IpAddress` operator. -/
theorem Statement.matchCondition_unknown {st : Statement}
    (hcompiles : ∀ c, st.condition = some c → c.compile.isSome = true) :
    st.matchCondition unknownSource = !st.usesIPAddress := by
  unfold Statement.matchCondition Statement.usesIPAddress
  cases hc : st.condition with
  | none => rfl
  | some c =>
    obtain ⟨compiled, hcompiled⟩ := Option.isSome_iff_exists.mp (hcompiles c hc)
    have hempty : compiled.ipAddress.isEmpty = c.ipAddress.isEmpty := by
      simp only [Condition.compile, Option.bind_eq_bind, Option.bind_eq_some_iff] at hcompiled
      obtain ⟨ips, hips, nots, -, heq⟩ := hcompiled
      cases heq
      exact parsePrefixes_isEmpty hips
    rw [Option.any_some, ← hempty, Bool.not_not]
    simp only [hcompiled, CompiledCondition.matches, unknownSource, Addr.isValid]
    cases compiled.ipAddress.isEmpty <;> simp

theorem outcomes_narrow_iff {deny allow deny' allow' : Prop} :
    ((allow ∧ ¬deny → allow' ∧ ¬deny') ∧ (¬deny ∧ ¬(allow ∧ ¬deny) → ¬deny')) ↔
      ¬(¬deny ∧ (deny' ∨ allow ∧ ¬allow')) := by
  by_cases hdeny : deny
  · simp [hdeny]
  · by_cases hallow : allow
    · simp [hdeny, hallow, and_comm]
    · simp [hdeny, hallow]

section Decision

variable [Unicode] (principal action resource : Bytes)

/-- The statement is about the request, wherever it comes from. -/
def Statement.names (st : Statement) : Bool :=
  st.matchPrincipal principal == some true &&
    (st.action.any fun p => match_ (toLower p) (toLower action)) && st.resource.any (match_ · resource)

theorem covers_eq_names (st : Statement) (rc : RequestContext) :
    st.covers principal action resource rc = (st.names principal action resource && st.matchCondition rc.unmap) := by
  unfold Statement.covers Statement.applies Statement.names
  cases st.matchPrincipal principal == some true <;> cases st.matchCondition rc.unmap <;> simp

/-- No Deny about the request does without `IpAddress`, and `s` meets the condition of one
    that has it; or an Allow about the request does without, and `s` meets the condition of
    none. -/
def UnknownWidens (p : Policy) (s : Addr) : Prop :=
  (∀ st ∈ p.statement, st.effect = effectDeny → st.names principal action resource = true →
      st.usesIPAddress = true) ∧
    ((∃ st ∈ p.statement, st.effect = effectDeny ∧ st.names principal action resource = true ∧
        st.matchCondition (RequestContext.unmap ⟨s⟩) = true) ∨
      ((∃ st ∈ p.statement, st.effect = effectAllow ∧ st.names principal action resource = true ∧
          st.usesIPAddress = false) ∧
        ∀ st ∈ p.statement, st.effect = effectAllow → st.names principal action resource = true →
          st.matchCondition (RequestContext.unmap ⟨s⟩) = false))

/-! ## The scan -/

/-- Some statement with the effect covers the request. -/
def Policy.Covered (p : Policy) (effect : Bytes) (rc : RequestContext) : Prop :=
  ∃ st ∈ p.statement, st.effect = effect ∧ st.names principal action resource = true ∧
    st.matchCondition rc.unmap = true

theorem ParsedPolicy.effect_deny_iff (p : ParsedPolicy) (rc : RequestContext) :
    (p.decide principal action rc resource).effect = .deny ↔
      p.policy.Covered principal action resource effectDeny rc := by
  rw [p.decide_deny_iff]
  simp [Policy.Covered, Statement.denies, covers_eq_names]

theorem ParsedPolicy.effect_allow_iff (p : ParsedPolicy) (rc : RequestContext) :
    (p.decide principal action rc resource).effect = .allow ↔
      p.policy.Covered principal action resource effectAllow rc ∧
        ¬p.policy.Covered principal action resource effectDeny rc := by
  rw [p.decide_allow_iff]
  refine and_congr ?_ ?_
  · simp [Policy.Covered, Statement.grants, covers_eq_names]
  · simp [Policy.Covered, Statement.denies, covers_eq_names]

/-- From an unknown source exactly the statements without `IpAddress` cover. -/
theorem covered_unknown_iff {p : Policy}
    (hcompiles : ∀ st ∈ p.statement, ∀ c, st.condition = some c → c.compile.isSome = true) (effect : Bytes) :
    p.Covered principal action resource effect unknownSource ↔
      ∃ st ∈ p.statement, st.effect = effect ∧ st.names principal action resource = true ∧
        st.usesIPAddress = false := by
  refine exists_congr fun st => and_congr_right fun hst => ?_
  have hunknown := Statement.matchCondition_unknown (hcompiles st hst)
  rw [← Bool.not_eq_true' st.usesIPAddress, ← hunknown]
  rfl

/-- The unknown source gets no more than `s` exactly when no statement widens. -/
theorem unknownSource_narrows_iff {ε : Type} (d : Dialect) (unmarshal : Bytes → Option JsonDocument)
    (bucket text : Bytes) (check : Option (Bytes → Option ε)) (p : Policy)
    (h : d.parse unmarshal bucket text check = .ok p) (s : Addr) :
    ∃ unknown known, p.decide principal action resource unknownSource = some unknown ∧
      p.decide principal action resource ⟨s⟩ = some known ∧
      (((unknown.effect = .allow → known.effect = .allow) ∧ (unknown.effect = .none → known.effect ≠ .deny)) ↔
        ¬UnknownWidens principal action resource p s) := by
  let q := ParsedPolicy.ofParse h
  have hcompiles : ∀ st ∈ p.statement, ∀ c, st.condition = some c → c.compile.isSome = true := by
    intro st hst c hc
    obtain ⟨name, hvalid⟩ := Policy.validate_statement (Dialect.validate_of_parse h) st hst
    exact Statement.compiles_of_validate hvalid hc
  refine ⟨q.decide principal action unknownSource resource, q.decide principal action ⟨s⟩ resource,
    (Option.some_get _).symm, (Option.some_get _).symm, ?_⟩
  have hnone : (q.decide principal action unknownSource resource).effect = .none ↔
      ¬(q.decide principal action unknownSource resource).effect = .deny ∧
        ¬(q.decide principal action unknownSource resource).effect = .allow := by
    cases (q.decide principal action unknownSource resource).effect <;> simp
  have hwidens : UnknownWidens principal action resource p s ↔
      ¬p.Covered principal action resource effectDeny unknownSource ∧
        (p.Covered principal action resource effectDeny ⟨s⟩ ∨
          p.Covered principal action resource effectAllow unknownSource ∧
            ¬p.Covered principal action resource effectAllow ⟨s⟩) := by
    rw [covered_unknown_iff principal action resource hcompiles,
      covered_unknown_iff principal action resource hcompiles]
    simp [UnknownWidens, Policy.Covered]
  rw [hwidens, hnone, ne_eq]
  rw [q.effect_deny_iff, q.effect_allow_iff, q.effect_deny_iff, q.effect_allow_iff]
  exact outcomes_narrow_iff

end Decision

/-! ## A grant that excludes a network -/

/-- Everyone may read, except from `10.0.0.0/8`. -/
def exemptDocument : JsonDocument where
  version := str "2012-10-17"
  statement := [
    { sid := [], effect := str "Allow", principal := some (.string (str "*")), notPrincipal := none,
      action := some (.string (str "s3:GetObject")), resource := some (.string (str "b/*")),
      condition := some (.object [(str "NotIpAddress",
        .object [(str "aws:SourceIp", .string (str "10.0.0.0/8"))])]) }]

def exemptText : Bytes := List.flatMap str [
  "\x7b\"Version\":", "\"2012-10-17\",", "\"Statement\":[",
  "\x7b\"Effect\":\"Allow\",", "\"Principal\":\"*\",", "\"Action\":", "\"s3:GetObject\",", "\"Resource\":\"b/*\",",
  "\"Condition\":", "\x7b\"NotIpAddress\":", "\x7b\"aws:SourceIp\":", "\"10.0.0.0/8\"\x7d\x7d\x7d]\x7d"]

def exemptPolicy : Policy where
  version := str "2012-10-17"
  statement := [
    { sid := [], effect := str "Allow", principal := some { all := true, users := [] },
      notPrincipal := none, action := [str "s3:GetObject"], resource := [str "b/*"],
      condition := some { ipAddress := [], notIPAddress := [str "10.0.0.0/8"] } }]

/-- `10.1.2.3`. -/
def exemptSource : Addr := .v4 0x0A010203

theorem exemptPolicy_parsed : let _ := asciiTables
    ({} : Dialect).parse (decodesOnly exemptText exemptDocument) (str "b") exemptText
      (none : Option (Bytes → Option Empty)) = .ok exemptPolicy := by
  intro _
  rw [Dialect.parse_decoded _ (by decide +kernel) (decodesOnly_self _ _)]
  rfl

theorem exemptPolicy_grants_unknown :
    let _ := asciiTables
    ({} : Dialect).parse (decodesOnly exemptText exemptDocument) (str "b") exemptText
        (none : Option (Bytes → Option Empty)) = .ok exemptPolicy ∧ exemptSource.isValid = true ∧
      exemptPolicy.decide (str "tb/bob") (str "s3:GetObject") (str "b/x") unknownSource = some ⟨.allow, 0⟩ ∧
      exemptPolicy.decide (str "tb/bob") (str "s3:GetObject") (str "b/x") ⟨exemptSource⟩ = some ⟨.none, -1⟩ := by
  intro _
  exact ⟨exemptPolicy_parsed, rfl, rfl, rfl⟩

theorem exemptPolicy_widens :
    let _ := asciiTables
    ({} : Dialect).parse (decodesOnly exemptText exemptDocument) (str "b") exemptText
        (none : Option (Bytes → Option Empty)) = .ok exemptPolicy ∧
      UnknownWidens (str "tb/bob") (str "s3:GetObject") (str "b/x") exemptPolicy exemptSource := by
  let _ := asciiTables
  obtain ⟨unknown, known, hunknown, hknown, hiff⟩ := unknownSource_narrows_iff (str "tb/bob") (str "s3:GetObject")
    (str "b/x") _ _ _ _ _ _ exemptPolicy_parsed exemptSource
  have hallow : exemptPolicy.decide (str "tb/bob") (str "s3:GetObject") (str "b/x") unknownSource =
      some ⟨.allow, 0⟩ := by rfl
  have hnone : exemptPolicy.decide (str "tb/bob") (str "s3:GetObject") (str "b/x") ⟨exemptSource⟩ =
      some ⟨.none, -1⟩ := by rfl
  cases hallow.symm.trans hunknown
  cases hnone.symm.trans hknown
  refine ⟨exemptPolicy_parsed, ?_⟩
  by_contra hnot
  exact absurd ((hiff.mpr hnot).1 rfl) (by decide)

end S3Gateway.Policy
