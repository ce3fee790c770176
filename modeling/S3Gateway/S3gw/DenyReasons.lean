import S3Gateway.S3gw.DeleteObjects

/-! # Explaining a refusal twice

`authorize` explains a refusal by the decision it was made on.  The per-object authorizer explains
it by a second scan, over the Deny patterns it has resolved.  It resolves none when no Allow
statement of another tenant's bucket is for the requester, and then misses the Deny statements. -/

namespace S3Gateway.S3gw

open Go S3err S3op Policy

/-- The same layer, statement, principal and action. -/
structure SameRefusal (r r' : DenyReason) : Prop where
  layer : r.layer = r'.layer
  statement : r.statement = r'.statement
  sid : r.sid = r'.sid
  principal : r.principal = r'.principal
  action : r.action = r'.action

theorem SameRefusal.refl (r : DenyReason) : SameRefusal r r := ⟨rfl, rfl, rfl, rfl, rfl⟩

@[simp]
theorem denyingStatement_empty (resource : List Rune) : DenyEvaluator.empty.denyingStatement resource = -1 := by
  rw [DenyEvaluator.denyingStatement_eq]
  rfl

section Reasons

variable [Unicode] (vr : VerifiedRequest) (b : Bucket) (action resource : Bytes)

/-- The reason in the error of `authorize`. -/
def AuthorizeReason (r : DenyReason) : Prop :=
  authorize vr b action resource = some (accessDenied.withCause (.denied r))

/-- No Allow statement of the policy is for the requester and the action. -/
def GrantsNowhere (p : ParsedPolicy) : Prop :=
  ∀ st ∈ p.policy.statement, st.grantsUnder vr.principal action vr.requestContext = true → st.resource = []

/-- A Deny statement covers the resource in another tenant's bucket, where no Allow statement is for
    the requester and the action. -/
structure HiddenDeny : Prop where
  user : (UserPolicy.decide vr.userPolicy action).effect = .allow
  foreign : b.tenant ≠ vr.tenant
  denied : ∃ p, b.policy = some p ∧ GrantsNowhere vr action p ∧
    ∃ st ∈ p.policy.statement, st.denies vr.principal action resource vr.requestContext = true

variable {vr b action resource}

theorem alwaysDenies_iff (p : ParsedPolicy) :
    (p.allowEvaluatorFor vr.principal action vr.requestContext).alwaysDenies = true ↔ GrantsNowhere vr action p := by
  rw [AllowEvaluator.alwaysDenies, beq_iff_eq, List.length_eq_zero_iff, p.allowResources_eq, List.eq_nil_iff_forall_not_mem]
  constructor
  · intro hnone st hst hgrants
    by_contra hne
    obtain ⟨pat, hpat⟩ := List.exists_mem_of_ne_nil _ hne
    exact hnone (runes pat) (FirstMatch.mem_patterns.mpr ⟨st, hst, hgrants, List.mem_map_of_mem hpat⟩)
  · intro hnowhere pat hpat
    obtain ⟨st, hst, hgrants, hin⟩ := FirstMatch.mem_patterns.mp hpat
    rw [Statement.resourceRunes, patternRunes, hnowhere st hst hgrants] at hin
    cases hin

theorem perObjectAuthorizer_crossTenant {p : ParsedPolicy} (huser : (UserPolicy.decide vr.userPolicy action).effect = .allow)
    (hforeign : b.tenant ≠ vr.tenant) (hp : b.policy = some p) :
    (perObjectAuthorizer vr b action).eval =
      if (p.allowEvaluatorFor vr.principal action vr.requestContext).alwaysDenies then .empty
      else p.denyEvaluatorFor vr.principal action vr.requestContext := by
  by_cases halways : (p.allowEvaluatorFor vr.principal action vr.requestContext).alwaysDenies = true
  · simp [perObjectAuthorizer, huser, hforeign, hp, halways, PerObjectAuthorizer.zero]
  · simp [perObjectAuthorizer, huser, hforeign, hp, halways]

variable (vr b action) in
theorem perObjectAuthorizer_fields :
    (perObjectAuthorizer vr b action).principal = vr.principal ∧ (perObjectAuthorizer vr b action).action = action ∧
      (perObjectAuthorizer vr b action).policy = b.policy ∧
      (perObjectAuthorizer vr b action).userDecision = UserPolicy.decide vr.userPolicy action := by
  unfold perObjectAuthorizer
  dsimp only
  split
  · exact ⟨rfl, rfl, rfl, rfl⟩
  · split
    · split
      · exact ⟨rfl, rfl, rfl, rfl⟩
      · split
        · exact ⟨rfl, rfl, rfl, rfl⟩
        · exact ⟨rfl, rfl, rfl, rfl⟩
    · split
      · exact ⟨rfl, rfl, rfl, rfl⟩
      · exact ⟨rfl, rfl, rfl, rfl⟩

/-- A refusal by the baseline for requesters of other tenants. -/
def crossTenantReason (principal action resource : Bytes) : DenyReason :=
  { layer := .crossTenant, statement := -1, principal, action, resource }

/-- Once the user policy lets the action through, the explanation is read off the resolved patterns. -/
theorem denyReason_of_allowed (huser : (UserPolicy.decide vr.userPolicy action).effect = .allow) :
    (perObjectAuthorizer vr b action).denyReason resource =
      if 0 ≤ (perObjectAuthorizer vr b action).eval.denyingStatement (runes resource) then
        denyStatementReason b.policy vr.principal action resource
          ((perObjectAuthorizer vr b action).eval.denyingStatement (runes resource))
      else crossTenantReason vr.principal action resource := by
  obtain ⟨hprincipal, haction, hpolicy, hdecision⟩ := perObjectAuthorizer_fields vr b action
  simp [PerObjectAuthorizer.denyReason, hprincipal, haction, hpolicy, hdecision, huser, crossTenantReason]

/-- With the Deny patterns of the policy resolved, the explanation is that of its decision. -/
theorem denyReason_of_resolved {p : ParsedPolicy} (huser : (UserPolicy.decide vr.userPolicy action).effect = .allow)
    (hp : b.policy = some p)
    (heval : (perObjectAuthorizer vr b action).eval = p.denyEvaluatorFor vr.principal action vr.requestContext) :
    (perObjectAuthorizer vr b action).denyReason resource =
      bucketPolicyReason (some p) vr.principal action resource
        (p.decide vr.principal action vr.requestContext resource) := by
  rw [denyReason_of_allowed huser, heval, p.denyingStatement_eq, hp]
  by_cases hdeny : (p.decide vr.principal action vr.requestContext resource).effect = .deny
  · obtain ⟨i, -, hi⟩ := p.decide_deny_statement vr.principal action vr.requestContext resource hdeny
    simp [bucketPolicyReason, hdeny, hi]
  · simp [bucketPolicyReason, hdeny, crossTenantReason]

theorem denyReason_of_unresolved (huser : (UserPolicy.decide vr.userPolicy action).effect = .allow)
    (heval : (perObjectAuthorizer vr b action).eval = .empty) :
    (perObjectAuthorizer vr b action).denyReason resource = crossTenantReason vr.principal action resource := by
  rw [denyReason_of_allowed huser, heval, denyingStatement_empty]
  rfl

/-- What `authorize` refuses on the bucket policy, it explains by the decision. -/
theorem authorizeReason_of_policy {p : ParsedPolicy} (huser : (UserPolicy.decide vr.userPolicy action).effect = .allow)
    (hp : b.policy = some p) (hrefused : authorize vr b action resource ≠ none) :
    AuthorizeReason vr b action resource
      (bucketPolicyReason (some p) vr.principal action resource
        (p.decide vr.principal action vr.requestContext resource)) := by
  unfold AuthorizeReason
  unfold authorize at hrefused ⊢
  by_cases htenant : b.tenant = vr.tenant
  · by_cases hdeny : (p.decide vr.principal action vr.requestContext resource).effect = .deny
    · simp [huser, htenant, hp, hdeny]
    · simp [huser, htenant, hp, hdeny] at hrefused
  · by_cases hallow : (p.decide vr.principal action vr.requestContext resource).effect = .allow
    · simp [huser, htenant, hp, hallow] at hrefused
    · simp [huser, htenant, hp, hallow]

theorem AuthorizeReason.unique {r r' : DenyReason} (h : AuthorizeReason vr b action resource r)
    (h' : AuthorizeReason vr b action resource r') : r = r' := by
  simpa [S3Error.withCause] using Option.some.inj (h.symm.trans h')

variable (vr b action resource) in
/-- The per-object authorizer explains the refusal as `authorize` does. -/
def ReasonsAgree : Prop :=
  ∃ r, AuthorizeReason vr b action resource r ∧ SameRefusal ((perObjectAuthorizer vr b action).denyReason resource) r

theorem reasonsAgree_of_eq {r : DenyReason} (h : AuthorizeReason vr b action resource r)
    (hreason : (perObjectAuthorizer vr b action).denyReason resource = r) : ReasonsAgree vr b action resource := by
  refine ⟨r, h, ?_⟩
  rw [hreason]
  exact .refl r

/-- With no Deny pattern resolved, they agree unless a Deny statement decided. -/
theorem reasonsAgree_of_unresolved {p : ParsedPolicy} (huser : (UserPolicy.decide vr.userPolicy action).effect = .allow)
    (hp : b.policy = some p) (hrefused : authorize vr b action resource ≠ none)
    (heval : (perObjectAuthorizer vr b action).eval = .empty) :
    ReasonsAgree vr b action resource ↔ (p.decide vr.principal action vr.requestContext resource).effect ≠ .deny := by
  have hreason := authorizeReason_of_policy huser hp hrefused
  have hbaseline : (perObjectAuthorizer vr b action).denyReason resource = _ := denyReason_of_unresolved huser heval
  constructor
  · rintro ⟨r, hr, hsame⟩ hdeny
    have hlayer := hsame.layer
    rw [hr.unique hreason, hbaseline] at hlayer
    simp [crossTenantReason, bucketPolicyReason, hdeny, denyStatementReason] at hlayer
  · intro hdeny
    apply reasonsAgree_of_eq hreason
    rw [hbaseline, bucketPolicyReason, if_pos hdeny, crossTenantReason]

theorem hiddenDeny_iff {p : ParsedPolicy} (huser : (UserPolicy.decide vr.userPolicy action).effect = .allow)
    (hforeign : b.tenant ≠ vr.tenant) (hp : b.policy = some p) :
    HiddenDeny vr b action resource ↔
      GrantsNowhere vr action p ∧ (p.decide vr.principal action vr.requestContext resource).effect = .deny := by
  rw [p.decide_deny_iff]
  constructor
  · intro h
    obtain ⟨q, hq, hnowhere, hdenies⟩ := h.denied
    obtain rfl : p = q := Option.some.inj (hp.symm.trans hq)
    exact ⟨hnowhere, hdenies⟩
  · exact fun ⟨hnowhere, hdenies⟩ => ⟨huser, hforeign, p, hp, hnowhere, hdenies⟩

theorem reasonsAgree_of_foreign {p : ParsedPolicy} (huser : (UserPolicy.decide vr.userPolicy action).effect = .allow)
    (hforeign : b.tenant ≠ vr.tenant) (hp : b.policy = some p) (hrefused : authorize vr b action resource ≠ none) :
    ReasonsAgree vr b action resource ↔ ¬HiddenDeny vr b action resource := by
  have heval := perObjectAuthorizer_crossTenant huser hforeign hp
  rw [hiddenDeny_iff huser hforeign hp]
  by_cases hnowhere : GrantsNowhere vr action p
  · rw [if_pos ((alwaysDenies_iff p).mpr hnowhere)] at heval
    rw [reasonsAgree_of_unresolved huser hp hrefused heval]
    simp [hnowhere]
  · rw [if_neg (fun halways => hnowhere ((alwaysDenies_iff p).mp halways))] at heval
    refine iff_of_true ?_ fun h => hnowhere h.1
    exact reasonsAgree_of_eq (authorizeReason_of_policy huser hp hrefused) (denyReason_of_resolved huser hp heval)

/-- The two explanations of a refusal are the same exactly if no Deny statement is hidden from the
    second. -/
theorem denyReason_agrees_iff (hdenies : (perObjectAuthorizer vr b action).denies resource = true) :
    (∃ r, AuthorizeReason vr b action resource r ∧ SameRefusal ((perObjectAuthorizer vr b action).denyReason resource) r) ↔
      ¬HiddenDeny vr b action resource := by
  have hrefused : authorize vr b action resource ≠ none := fun hnone => by
    simp [(perObjectAuthorizer_denies_iff vr b action resource).mpr hnone] at hdenies
  change ReasonsAgree vr b action resource ↔ _
  by_cases huser : (UserPolicy.decide vr.userPolicy action).effect = .allow
  · cases hp : b.policy with
    | none =>
      -- only another tenant's requester is refused without a policy
      have hforeign : b.tenant ≠ vr.tenant := fun htenant => by simp [authorize, huser, htenant, hp] at hrefused
      have heval : (perObjectAuthorizer vr b action).eval = .empty := by
        simp [perObjectAuthorizer, huser, hforeign, hp, PerObjectAuthorizer.zero]
      have hreason : AuthorizeReason vr b action resource (crossTenantReason vr.principal action resource) := by
        simp [AuthorizeReason, authorize, huser, hforeign, hp, bucketPolicyReason, crossTenantReason]
      refine iff_of_true (reasonsAgree_of_eq hreason (denyReason_of_unresolved huser heval)) fun h => ?_
      obtain ⟨p, hsome, -⟩ := h.denied
      simp [hp] at hsome
    | some p =>
      by_cases hforeign : b.tenant = vr.tenant
      · have heval : (perObjectAuthorizer vr b action).eval = p.denyEvaluatorFor vr.principal action vr.requestContext := by
          simp [perObjectAuthorizer, huser, hforeign, hp]
        refine iff_of_true ?_ fun h => h.foreign hforeign
        exact reasonsAgree_of_eq (authorizeReason_of_policy huser hp hrefused) (denyReason_of_resolved huser hp heval)
      · exact reasonsAgree_of_foreign huser hforeign hp hrefused
  · have hreason : AuthorizeReason vr b action resource
        (userPolicyReason vr.principal action (UserPolicy.decide vr.userPolicy action)) := by
      simp [AuthorizeReason, authorize, huser]
    refine iff_of_true (reasonsAgree_of_eq hreason ?_) fun h => huser h.user
    obtain ⟨hprincipal, haction, -, hdecision⟩ := perObjectAuthorizer_fields vr b action
    simp [PerObjectAuthorizer.denyReason, hprincipal, haction, hdecision, huser]

end Reasons

/-- Where the policy of `sharedBucket` grants nothing, it is the baseline that refuses `b/log`. -/
theorem sharedBucket_agrees :
    let _ := asciiTables
    (perObjectAuthorizer sharedDeleteCtx.vr sharedBucket (str "s3:DeleteObject")).denies (str "b/log") = true ∧
      ∃ r, AuthorizeReason sharedDeleteCtx.vr sharedBucket (str "s3:DeleteObject") (str "b/log") r ∧
        SameRefusal ((perObjectAuthorizer sharedDeleteCtx.vr sharedBucket (str "s3:DeleteObject")).denyReason (str "b/log")) r := by
  intro _
  have hdenies : (perObjectAuthorizer sharedDeleteCtx.vr sharedBucket (str "s3:DeleteObject")).denies (str "b/log") = true := by
    decide +kernel
  refine ⟨hdenies, (denyReason_agrees_iff hdenies).mpr fun h => ?_⟩
  obtain ⟨p, hp, -, st, hst, hdeny⟩ := h.denied
  cases hp
  obtain rfl := List.mem_singleton.mp hst
  exact absurd hdeny (by decide +kernel)

/-- Users of `ta` may read, and nobody may delete under `b/audit/`. -/
def auditBucket : Bucket where
  tenant := str "tb"
  name := str "b"
  backend := { endpoint := [], region := str "r", bucket := str "backend-b", accessKeyID := [] }
  policyText := []
  policy := some
    { policy :=
        { version := []
          statement := [
            { sid := str "Read", effect := str "Allow", principal := some ⟨false, [str "ta/*"]⟩,
              notPrincipal := none, action := [str "s3:GetObject"], resource := [str "b/*"], condition := none },
            { sid := str "KeepAudit", effect := str "Deny", principal := some ⟨true, []⟩,
              notPrincipal := none, action := [str "s3:DeleteObject"], resource := [str "b/audit/*"], condition := none }] }
      wellFormed := by
        intro st hst
        rcases List.mem_cons.mp hst with rfl | hst
        · exact ⟨by decide, by decide, by decide⟩
        · obtain rfl := List.mem_singleton.mp hst
          exact ⟨by decide, by decide, by decide⟩ }
  cors := []

/-- A delete under `b/audit/` is refused by the second statement, and explained by the baseline. -/
theorem auditBucket_hides_statement :
    let _ := asciiTables
    let reason := (perObjectAuthorizer sharedDeleteCtx.vr auditBucket (str "s3:DeleteObject")).denyReason (str "b/audit/1")
    (perObjectAuthorizer sharedDeleteCtx.vr auditBucket (str "s3:DeleteObject")).denies (str "b/audit/1") = true ∧
      reason.layer = .crossTenant ∧ reason.statement = -1 ∧
      ∃ r, AuthorizeReason sharedDeleteCtx.vr auditBucket (str "s3:DeleteObject") (str "b/audit/1") r ∧
        r.layer = .bucketPolicy ∧ r.statement = 1 ∧ r.sid = str "KeepAudit" := by
  intro _
  exact ⟨by decide +kernel, by decide +kernel, by decide +kernel,
    denyStatementReason auditBucket.policy (str "ta/alice") (str "s3:DeleteObject") (str "b/audit/1") 1,
    by unfold AuthorizeReason; decide +kernel, rfl, rfl, by decide +kernel⟩

end S3Gateway.S3gw
