import S3Gateway.S3gw.Types

/-! # Authorization

`authorize` decides one action on one resource.  `perObjectAuthorizer` resolves
everything but the resource once, for `DeleteObjects`; the two agree on every
resource. -/

namespace S3Gateway.S3gw

open Go S3err Policy

/-! ## Explaining a refusal -/

def userPolicyReason (principal action : Bytes) (d : Decision) : DenyReason :=
  { layer := .userPolicy, statement := d.statement, principal, action }

def denyStatementReason (p : Option ParsedPolicy) (principal action resource : Bytes) (i : Int) :
    DenyReason :=
  let sid :=
    match p with
    | some p => if 0 ≤ i then ((p.policy.statement[i.toNat]?).map (·.sid)).getD [] else []
    | none => []
  { layer := .bucketPolicy, statement := i, sid, principal, action, resource }

def bucketPolicyReason (p : Option ParsedPolicy) (principal action resource : Bytes)
    (d : Decision) : DenyReason :=
  if d.effect ≠ .deny then
    { layer := .crossTenant, statement := -1, principal, action, resource }
  else denyStatementReason p principal action resource d.statement

def visibilityReason (principal bucket : Bytes) : DenyReason :=
  { layer := .visibility, statement := -1, principal, resource := bucket }

def copySourceReason (principal action resource : Bytes) (err : StoreError) : DenyReason :=
  { layer := .copySource, statement := -1, principal, action, resource, err := some err }

/-! ## The two authorizers -/

section Authorizers

variable [Unicode] (vr : VerifiedRequest) (b : Bucket) (action : Bytes)

/-- `authorize(vr, b, action, resource)`; `none` is the nil error. -/
def authorize (resource : Bytes) : Option S3Error :=
  let d := UserPolicy.decide vr.userPolicy action
  if d.effect ≠ .allow then
    some (accessDenied.withCause (.denied (userPolicyReason vr.principal action d)))
  else if b.tenant ≠ vr.tenant then
    -- another tenant's bucket: nothing without a matching Allow
    match b.policy with
    | none =>
      some (accessDenied.withCause (.denied
        (bucketPolicyReason none vr.principal action resource ⟨.none, -1⟩)))
    | some p =>
      let d := p.decide vr.principal action vr.requestContext resource
      if d.effect ≠ .allow then
        some (accessDenied.withCause (.denied
          (bucketPolicyReason (some p) vr.principal action resource d)))
      else none
  else
    match b.policy with
    | none => none
    | some p =>
      let d := p.decide vr.principal action vr.requestContext resource
      if d.effect = .deny then
        some (accessDenied.withCause (.denied
          (bucketPolicyReason (some p) vr.principal action resource d)))
      else none

structure PerObjectAuthorizer where
  denyAll : Bool
  eval : DenyEvaluator
  requireAllow : Bool
  allow : AllowEvaluator
  principal : Bytes
  action : Bytes
  policy : Option ParsedPolicy
  userDecision : Decision

/-- The zero value, which a variable holds until an authorizer is built. -/
def PerObjectAuthorizer.zero : PerObjectAuthorizer where
  denyAll := false
  eval := .empty
  requireAllow := false
  allow := { allowResources := [] }
  principal := []
  action := []
  policy := none
  userDecision := ⟨.none, 0⟩

def perObjectAuthorizer : PerObjectAuthorizer :=
  let a : PerObjectAuthorizer :=
    { PerObjectAuthorizer.zero with
      principal := vr.principal, action, policy := b.policy,
      userDecision := UserPolicy.decide vr.userPolicy action }
  if a.userDecision.effect ≠ .allow then { a with denyAll := true }
  else if b.tenant ≠ vr.tenant then
    let a := { a with requireAllow := true }
    match b.policy with
    | none => { a with denyAll := true }
    | some p =>
      let a := { a with allow := p.allowEvaluatorFor vr.principal action vr.requestContext }
      if a.allow.alwaysDenies then { a with denyAll := true }
      else { a with eval := p.denyEvaluatorFor vr.principal action vr.requestContext }
  else
    match b.policy with
    | none => a
    | some p => { a with eval := p.denyEvaluatorFor vr.principal action vr.requestContext }

end Authorizers

namespace PerObjectAuthorizer

def denies (a : PerObjectAuthorizer) (resource : Bytes) : Bool :=
  if a.denyAll then true
  else if !a.requireAllow then a.eval.denies resource
  else !a.allow.allowsRunes (runes resource) || a.eval.deniesRunes (runes resource)

def denyReason (a : PerObjectAuthorizer) (resource : Bytes) : DenyReason :=
  if a.userDecision.effect ≠ .allow then userPolicyReason a.principal a.action a.userDecision
  else
    let i := a.eval.denyingStatement (runes resource)
    if 0 ≤ i then denyStatementReason a.policy a.principal a.action resource i
    else
      { layer := .crossTenant, statement := -1, principal := a.principal, action := a.action,
        resource }

def allowsEverything (a : PerObjectAuthorizer) : Bool :=
  !a.denyAll && !a.requireAllow && a.eval.alwaysAllows

theorem denies_of_allowsEverything {a : PerObjectAuthorizer} (h : a.allowsEverything = true)
    (resource : Bytes) : a.denies resource = false := by
  unfold allowsEverything at h
  simp only [Bool.and_eq_true, Bool.not_eq_true'] at h
  obtain ⟨⟨hall, hreq⟩, halways⟩ := h
  rw [denies, hall, hreq]
  exact DenyEvaluator.not_denies_of_alwaysAllows halways resource

end PerObjectAuthorizer

/-! ## Agreement -/

section Agreement

variable [Unicode] (vr : VerifiedRequest) (b : Bucket) (action resource : Bytes)

theorem authorize_eq_none_iff :
    authorize vr b action resource = none ↔
      (UserPolicy.decide vr.userPolicy action).effect = .allow ∧
        if b.tenant ≠ vr.tenant then
          ∃ p, b.policy = some p ∧
            (p.decide vr.principal action vr.requestContext resource).effect = .allow
        else
          ∀ p, b.policy = some p →
            (p.decide vr.principal action vr.requestContext resource).effect ≠ .deny := by
  unfold authorize
  by_cases huser : (UserPolicy.decide vr.userPolicy action).effect = .allow
  · by_cases htenant : b.tenant = vr.tenant
    · cases hp : b.policy with
      | none => simp [huser, htenant]
      | some p => simp [huser, htenant]
    · cases hp : b.policy with
      | none => simp [huser, htenant]
      | some p => simp [huser, htenant]
  · simp [huser]

/-- The cross-tenant authorizer under a policy: the shortcut for a policy without
    a matching Allow and the two-sided test come to the same. -/
theorem crossTenant_denies_iff {p : ParsedPolicy}
    (huser : (UserPolicy.decide vr.userPolicy action).effect = .allow)
    (htenant : b.tenant ≠ vr.tenant) (hp : b.policy = some p) :
    (perObjectAuthorizer vr b action).denies resource = false ↔
      (p.decide vr.principal action vr.requestContext resource).effect = .allow := by
  have hallow := p.allows_and_not_denies_iff vr.principal action vr.requestContext resource
  unfold perObjectAuthorizer
  by_cases halways :
      (p.allowEvaluatorFor vr.principal action vr.requestContext).alwaysDenies = true
  · have hnot := AllowEvaluator.not_allows_of_alwaysDenies halways resource
    rw [hnot] at hallow
    simp only [huser, htenant, hp, halways, PerObjectAuthorizer.denies, if_true, if_false, ne_eq,
      not_true, not_false_eq_true]
    simpa using hallow
  · simp only [huser, htenant, hp, halways, PerObjectAuthorizer.denies, PerObjectAuthorizer.zero,
      if_true, if_false, ne_eq, not_true, not_false_eq_true, Bool.not_true, Bool.false_eq_true]
    rw [← hallow, Bool.or_eq_false_iff, Bool.not_eq_false']
    rfl

/-- The precomputed authorizer lets through exactly the resources `authorize` does. -/
theorem perObjectAuthorizer_denies_iff :
    (perObjectAuthorizer vr b action).denies resource = false ↔
      authorize vr b action resource = none := by
  rw [authorize_eq_none_iff]
  by_cases huser : (UserPolicy.decide vr.userPolicy action).effect = .allow
  · by_cases htenant : b.tenant = vr.tenant
    · cases hp : b.policy with
      | none => simp [perObjectAuthorizer, huser, htenant, hp, PerObjectAuthorizer.denies,
          PerObjectAuthorizer.zero, DenyEvaluator.empty, DenyEvaluator.denies,
          DenyEvaluator.deniesRunes]
      | some p =>
        have hdeny := p.denies_iff vr.principal action vr.requestContext resource
        have heval : (perObjectAuthorizer vr b action).denies resource =
            (p.denyEvaluatorFor vr.principal action vr.requestContext).denies resource := by
          simp [perObjectAuthorizer, huser, htenant, hp, PerObjectAuthorizer.denies,
            PerObjectAuthorizer.zero]
        rw [heval, ← Bool.not_eq_true, hdeny]
        simp [huser, htenant]
    · cases hp : b.policy with
      | none => simp [perObjectAuthorizer, huser, htenant, hp, PerObjectAuthorizer.denies]
      | some p =>
        rw [crossTenant_denies_iff vr b action resource huser htenant hp]
        simp [huser, htenant]
  · simp [perObjectAuthorizer, huser, PerObjectAuthorizer.denies]

end Agreement

end S3Gateway.S3gw
