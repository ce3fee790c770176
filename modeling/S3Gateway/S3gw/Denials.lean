import S3Gateway.Library.Tally
import S3Gateway.S3gw.DenyReasons

/-! # The account of refused keys

`DeleteObjects` succeeds even where it refuses keys, and tells the observer about them in
`Op.Denials`: one entry for each layer and statement, whichever of its three authorizers refused. -/

namespace S3Gateway.S3gw

open Go S3err S3op Policy

/-! ## One entry for each layer and statement -/

/-- What an entry of `Op.Denials` stands for. -/
def reasonKey (r : DenyReason) : Layer × Int := (r.layer, r.statement)

def Denial.pair (d : Denial) : DenyReason × Nat := (d.reason, d.keys)

theorem addDenial_pairs (denials : List Denial) (r : DenyReason) :
    (addDenial denials r).map Denial.pair = Tally.add reasonKey (denials.map Denial.pair) r := by
  induction denials with
  | nil => rfl
  | cons d rest ih =>
    rw [List.map_cons, Denial.pair, Tally.add, addDenial]
    by_cases hsame : d.reason.layer = r.layer ∧ d.reason.statement = r.statement
    · rw [if_pos hsame, if_pos (by simp [reasonKey, hsame])]
      rfl
    · rw [if_neg hsame, if_neg (by simpa [reasonKey] using hsame), List.map_cons, ih]
      rfl

theorem foldl_addDenial_pairs (denials : List Denial) (reasons : List DenyReason) :
    (reasons.foldl addDenial denials).map Denial.pair = reasons.foldl (Tally.add reasonKey) (denials.map Denial.pair) := by
  induction reasons generalizing denials with
  | nil => rfl
  | cons r rest ih => rw [List.foldl_cons, List.foldl_cons, ih, addDenial_pairs]

section Loop

variable [Unicode] (c : OpCtx)

omit [Unicode] in
theorem deleteLoop_denials {a : DeleteAuthorizers} {objects : List DeleteRequestObject} {p p' : DeleteProgress}
    (h : deleteLoop c a objects p = .ok p') :
    p'.denials = (objects.filterMap (entryDenial c a)).foldl addDenial p.denials := by
  induction objects generalizing p with
  | nil =>
    cases h
    rfl
  | cons o rest ih =>
    rw [deleteLoop] at h
    cases hd : entryDenial c a o with
    | some reason =>
      rw [hd] at h
      rw [List.filterMap_cons_some hd, List.foldl_cons]
      exact ih h
    | none =>
      rw [hd] at h
      obtain ⟨oi, -, h⟩ := Fallible.bind_eq_ok.mp h
      rw [List.filterMap_cons_none hd]
      have hrest := ih h
      exact hrest

/-! ## Where a reason comes from -/

/-- The actions the loop asks about. -/
def deleteActions : List Action := [.deleteObject, .deleteObjectVersion, .bypassGovernanceRetention]

theorem entryDenial_reason {objects : List DeleteRequestObject} {o : DeleteRequestObject} (ho : o ∈ objects) {r : DenyReason}
    (h : entryDenial c (deleteAuthorizers c objects) o = some r) :
    ∃ action ∈ deleteActions, r = (perObjectAuthorizer c.vr c.cfg action.name).denyReason (entryResource c o) := by
  unfold entryDenial at h
  rw [entryAuth_eq c ho] at h
  split at h
  · cases h
  · dsimp only at h
    split at h
    · refine ⟨entryAction o, ?_, (Option.some.inj h).symm⟩
      unfold entryAction
      split <;> simp [deleteActions]
    -- the entry's own action is allowed, and the bypass is not
    · split at h
      · rename_i hbypass
        have hb : bypassGovernanceRetention c.hdr = true := (Bool.and_eq_true_iff.mp hbypass).1
        rw [bypassAuth_eq c objects hb] at h
        exact ⟨.bypassGovernanceRetention, by simp [deleteActions], (Option.some.inj h).symm⟩
      · cases h

omit [Unicode] in
theorem denyReason_resource (a : PerObjectAuthorizer) (resource : Bytes) :
    (a.denyReason resource).resource = if (a.denyReason resource).layer = .userPolicy then [] else resource := by
  unfold PerObjectAuthorizer.denyReason
  split
  · simp [userPolicyReason]
  · dsimp only
    split
    · simp [denyStatementReason]
    · simp

def statementCount (b : Bucket) : Nat := (b.policy.map (·.policy.statement.length)).getD 0

/-- What a refusal of an action can be put down to. -/
def refusalKeys (vr : VerifiedRequest) (b : Bucket) (action : Action) : List (Layer × Int) :=
  (.userPolicy, (UserPolicy.decide vr.userPolicy action.name).statement) :: (.crossTenant, -1) ::
    (List.range (statementCount b)).map fun i : Nat => (.bucketPolicy, (i : Int))

/-- The authorizer resolves the Deny patterns of the bucket's policy, or none. -/
theorem perObjectAuthorizer_eval (vr : VerifiedRequest) (b : Bucket) (action : Bytes) :
    (perObjectAuthorizer vr b action).eval = .empty ∨
      ∃ p, b.policy = some p ∧
        (perObjectAuthorizer vr b action).eval = p.denyEvaluatorFor vr.principal action vr.requestContext := by
  unfold perObjectAuthorizer
  dsimp only
  split
  · exact .inl rfl
  · split
    · split
      · exact .inl rfl
      · rename_i p hp
        split
        · exact .inl rfl
        · exact .inr ⟨p, hp, rfl⟩
    · split
      · exact .inl rfl
      · rename_i p hp
        exact .inr ⟨p, hp, rfl⟩

theorem denyReason_key (vr : VerifiedRequest) (b : Bucket) (action : Action) (resource : Bytes) :
    reasonKey ((perObjectAuthorizer vr b action.name).denyReason resource) ∈ refusalKeys vr b action := by
  by_cases huser : (UserPolicy.decide vr.userPolicy action.name).effect = .allow
  · rw [denyReason_of_allowed huser]
    split
    · rename_i hindex
      rcases perObjectAuthorizer_eval vr b action.name with hempty | ⟨p, hp, heval⟩
      · rw [hempty, denyingStatement_empty] at hindex
        cases hindex
      · -- the index is that of a statement of the policy
        rw [heval, p.denyingStatement_eq] at hindex ⊢
        split at hindex
        · rename_i hdeny
          obtain ⟨i, hi, hstatement⟩ := p.decide_deny_statement vr.principal action.name vr.requestContext resource hdeny
          simp [reasonKey, denyStatementReason, refusalKeys, statementCount, hp, hdeny, hstatement, hi]
        · cases hindex
    · simp [reasonKey, crossTenantReason, refusalKeys]
  · obtain ⟨-, -, -, hdecision⟩ := perObjectAuthorizer_fields vr b action.name
    simp [PerObjectAuthorizer.denyReason, hdecision, huser, reasonKey, userPolicyReason, refusalKeys]

/-- What the refusals of one request can be put down to. -/
def deleteKeys : List (Layer × Int) :=
  deleteActions.map (fun action => (.userPolicy, (UserPolicy.decide c.vr.userPolicy action.name).statement)) ++
    (.crossTenant, -1) :: (List.range (statementCount c.cfg)).map fun i : Nat => (.bucketPolicy, (i : Int))

theorem length_deleteKeys : (deleteKeys c).length = statementCount c.cfg + 4 := by
  simp only [deleteKeys, deleteActions, List.length_append, List.length_map, List.length_cons, List.length_nil, List.length_range]
  omega

theorem refusalKeys_subset {action : Action} (haction : action ∈ deleteActions) :
    refusalKeys c.vr c.cfg action ⊆ deleteKeys c := by
  intro k hk
  rcases List.mem_cons.mp hk with rfl | hk
  · exact List.mem_append_left _ (List.mem_map_of_mem haction)
  · exact List.mem_append_right _ hk

/-! ## The account -/

/-- The entry of the request is refused, for the layer and the statement of `d`. -/
def attributed (objects : List DeleteRequestObject) (d : Denial) (o : DeleteRequestObject) : Bool :=
  (entryDenial c (deleteAuthorizers c objects) o).any fun r => reasonKey r = reasonKey d.reason

/-- What `Op.Denials` says about the entries of a request. -/
structure DenialsAccount (objects : List DeleteRequestObject) (denials : List Denial) : Prop where
  total : (denials.map (·.keys)).sum = (objects.filter fun o => ¬entryPermitted c o).length
  distinct : (denials.map fun d => (d.reason.layer, d.reason.statement)).Nodup
  share : ∀ d ∈ denials, d.keys = (objects.filter (attributed c objects d)).length
  first : ∀ d ∈ denials, ∃ o, objects.find? (attributed c objects d) = some o ∧
    d.reason.resource = if d.reason.layer = .userPolicy then [] else entryResource c o
  bounded : denials.length ≤ statementCount c.cfg + 4

theorem entryDenial_isSome_iff {objects : List DeleteRequestObject} {o : DeleteRequestObject} (ho : o ∈ objects) :
    (entryDenial c (deleteAuthorizers c objects) o).isSome = true ↔ ¬entryPermitted c o := by
  rw [← entryDenial_eq_none_iff c objects ho, Option.isSome_iff_ne_none]

/-- For every request and every policy, once the loop is through. -/
theorem deleteLoop_accounts {objects : List DeleteRequestObject} {p : DeleteProgress}
    (h : deleteLoop c (deleteAuthorizers c objects) objects {} = .ok p) : DenialsAccount c objects p.denials := by
  set refusal := entryDenial c (deleteAuthorizers c objects) with hrefusal
  -- the entries are the tally of the reasons
  have htally : Tally.Tallies reasonKey (objects.filterMap refusal) (p.denials.map Denial.pair) := by
    rw [deleteLoop_denials c h, foldl_addDenial_pairs]
    exact Tally.tallies_foldl reasonKey _
  have hentry : ∀ d ∈ p.denials, d.pair ∈ p.denials.map Denial.pair := fun d hd => List.mem_map_of_mem hd
  refine ⟨?_, ?_, fun d hd => ?_, fun d hd => ?_, ?_⟩
  · have htotal := htally.total
    rw [List.map_map] at htotal
    rw [List.length_filterMap_eq_countP, List.countP_eq_length_filter] at htotal
    refine htotal.trans (congrArg List.length (List.filter_congr fun o ho => ?_))
    rw [Bool.eq_iff_iff, entryDenial_isSome_iff c ho, decide_eq_true_eq]
  · have hdistinct := htally.distinct
    rwa [List.map_map] at hdistinct
  · have hcount := htally.count _ (hentry d hd)
    rw [List.countP_filterMap, List.countP_eq_length_filter] at hcount
    refine hcount.trans (congrArg List.length (List.filter_congr fun o _ => ?_))
    unfold attributed
    rw [← hrefusal, Bool.eq_iff_iff]
    cases refusal o with
    | none => rfl
    | some r =>
      show decide (reasonKey r = reasonKey d.reason) = true ↔ decide (reasonKey r = reasonKey d.reason) = true
      exact ⟨fun hsame => decide_eq_true (of_decide_eq_true hsame), fun hsame => decide_eq_true (of_decide_eq_true hsame)⟩
  · -- the first reason under a key is that of the first entry refused under it
    have hfirst := htally.first _ (hentry d hd)
    rw [List.find?_filterMap, Option.bind_eq_some_iff] at hfirst
    obtain ⟨o, hfind, hreason⟩ := hfirst
    refine ⟨o, hfind, ?_⟩
    obtain ⟨action, -, hr⟩ := entryDenial_reason c (List.mem_of_find?_eq_some hfind) hreason
    have hresource := denyReason_resource (perObjectAuthorizer c.vr c.cfg action.name) (entryResource c o)
    rw [← hr] at hresource
    exact hresource
  · -- three answers of the user policy, the baseline, and the statements
    rw [← length_deleteKeys c, ← List.length_map Denial.pair]
    refine htally.length_le fun r hr => ?_
    obtain ⟨o, ho, hreason⟩ := List.mem_filterMap.mp hr
    obtain ⟨action, haction, rfl⟩ := entryDenial_reason c ho hreason
    exact refusalKeys_subset c haction (denyReason_key c.vr c.cfg action (entryResource c o))

end Loop

/-- Two of the three deletes in `sharedDelete` are refused by the baseline, under the first of them. -/
theorem sharedDelete_accounts :
    let _ := asciiTables
    let reason := crossTenantReason (str "ta/alice") (str "s3:DeleteObject") (str "b/log")
    ∃ p, deleteLoop sharedDeleteCtx (deleteAuthorizers sharedDeleteCtx sharedDelete.objects) sharedDelete.objects {} = .ok p ∧
      p.denials = [{ reason, keys := 2 }] ∧ DenialsAccount sharedDeleteCtx sharedDelete.objects p.denials := by
  intro _ reason
  have hdenials : (deleteLoop sharedDeleteCtx (deleteAuthorizers sharedDeleteCtx sharedDelete.objects)
      sharedDelete.objects {}).map (·.denials) = .ok [{ reason, keys := 2 }] := by
    decide +kernel
  cases hloop : deleteLoop sharedDeleteCtx (deleteAuthorizers sharedDeleteCtx sharedDelete.objects) sharedDelete.objects {} with
  | error e =>
    rw [hloop] at hdenials
    cases hdenials
  | ok p =>
    rw [hloop] at hdenials
    exact ⟨p, rfl, Except.ok.inj hdenials, deleteLoop_accounts sharedDeleteCtx hloop⟩

end S3Gateway.S3gw
