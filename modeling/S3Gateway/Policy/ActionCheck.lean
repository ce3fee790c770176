import S3Gateway.Policy.Decide

/-! # Checking actions

`ValidateUserPolicy` and `MarshalUserPolicy`, and the place of the action check: it is the
last one, so a policy it refuses is accepted without it. -/

set_option linter.dupNamespace false

namespace S3Gateway.Policy

open Go

/-! ## User policies -/

section UserPolicy

variable [Unicode] {ε : Type}

/-- `checkActions(check, n, actions, sid)`, for the pairs of a Sid and its actions. -/
def checkActionLists (check : Option (Bytes → Option ε)) (statements : List (Bytes × List Bytes)) :
    Option (Error ε) :=
  match check with
  | none => none
  | some check =>
    let errs := statements.zipIdx.flatMap fun (st, i) => (st.2.filterMap check).map (i, st.1, ·)
    if errs.isEmpty then none else some (.unknownActions errs)

/-- The body of the loop of `ValidateUserPolicy`. -/
def ActionStatement.validate (st : ActionStatement) (i : Nat) : Option (Error ε) :=
  if st.effect ≠ effectAllow ∧ st.effect ≠ effectDeny then some (.effect (.index i))
  else if st.action.isEmpty then some (.noAction (.index i))
  else if maxActionsPerStatement < st.action.length then some (.tooManyActions (.index i) st.action.length)
  else st.action.findSome? (validateAction (.index i))

/-- `ValidateUserPolicy(up, check)`; `none` is the nil error. -/
def validateUserPolicy (up : UserPolicy) (check : Option (Bytes → Option ε)) : Option (Error ε) :=
  if maxStatements < up.statements.length then some (.tooManyStatements up.statements.length)
  else
    (up.statements.zipIdx.findSome? fun (st, i) => st.validate i).or
      (checkActionLists check (up.statements.map fun st => ([], st.action)))

def marshalStatement (st : ActionStatement) : Bytes :=
  str "\x7b\"effect\":" ++ marshalString st.effect ++ str ",\"action\":" ++ marshalStrings st.action ++ str "\x7d"

/-- `MarshalUserPolicy(up)`, for a policy with statements. -/
def marshalUserPolicy (up : UserPolicy) : Except (Error ε) Bytes :=
  let data := str "\x7b\"policy\":[" ++ join (up.statements.map marshalStatement) (str ",") ++ str "]\x7d"
  if maxPolicyBytes < data.length then .error (.tooLarge data.length) else .ok data

end UserPolicy

/-! ## The action check comes last -/

/-- `errors.Is(err, s3op.ErrUnknownAction)`, for the errors of this package. -/
def Error.isUnknownAction {ε : Type} : Error ε → Bool
  | .unknownActions _ => true
  | _ => false

def Structural {ε : Type} (err : Option (Error ε)) : Prop := ∀ e ∈ err, e.isUnknownAction = false

section Structural

variable {ε α : Type}

theorem structural_none : Structural (none : Option (Error ε)) := nofun

theorem structural_some {e : Error ε} (h : e.isUnknownAction = false) : Structural (some e) := by
  intro e' he'
  cases he'
  exact h

theorem structural_map {f : α → Error ε} (hf : ∀ a, (f a).isUnknownAction = false) (x : Option α) :
    Structural (x.map f) := by
  cases x with
  | none => exact structural_none
  | some a => exact structural_some (hf a)

theorem Structural.guard {c : Prop} [Decidable c] {e : Error ε} {x : Option (Error ε)}
    (he : e.isUnknownAction = false) (hx : Structural x) : Structural (if c then some e else x) := by
  split
  · exact structural_some he
  · exact hx

theorem Structural.or {x y : Option (Error ε)} (hx : Structural x) (hy : Structural y) :
    Structural (x.or y) := by
  cases x with
  | none => exact hy
  | some e => exact hx

theorem structural_findSome {f : α → Option (Error ε)} (hf : ∀ a, Structural (f a)) (l : List α) :
    Structural (l.findSome? f) := by
  intro e he
  obtain ⟨a, -, ha⟩ := List.exists_of_findSome?_eq_some he
  exact hf a e ha

end Structural

section Validation

variable [Unicode] {ε : Type}

omit [Unicode] in
theorem validatePrincipal_structural (pr : Option Principal) (name : StatementName) :
    Structural (validatePrincipal (ε := ε) pr name) := by
  cases pr with
  | none => exact structural_none
  | some pr =>
    apply Structural.guard rfl
    exact structural_map (fun _ => rfl) _

theorem validateAction_structural (name : StatementName) (a : Bytes) :
    Structural (validateAction (ε := ε) name a) := by
  iterate 2 apply Structural.guard rfl
  exact structural_none

omit [Unicode] in
theorem validateCondition_structural (c : Condition) (name : StatementName) :
    Structural (validateCondition (ε := ε) c name) := by
  iterate 4 apply Structural.guard rfl
  exact structural_none

theorem Statement.validate_structural (st : Statement) (name : StatementName) :
    Structural (st.validate (ε := ε) name) := by
  iterate 4 apply Structural.guard rfl
  apply Structural.or (validatePrincipal_structural _ name)
  apply Structural.or (validatePrincipal_structural _ name)
  iterate 2 apply Structural.guard rfl
  apply Structural.or (structural_findSome (validateAction_structural name) _)
  iterate 2 apply Structural.guard rfl
  apply Structural.or (structural_map (fun _ => rfl) _)
  cases st.condition with
  | none => exact structural_none
  | some c => exact validateCondition_structural c name

theorem validateStatements_structural (sts : List Statement) (i : Nat) (sids : List (Bytes × Nat)) :
    Structural (validateStatements (ε := ε) i sts sids) := by
  induction sts generalizing i sids with
  | nil => exact structural_none
  | cons st rest ih =>
    unfold validateStatements
    split
    · exact structural_some rfl
    · exact Structural.or (st.validate_structural _) (ih _ _)

theorem Policy.validate_structural (p : Policy) : Structural (p.validate (ε := ε)) := by
  iterate 3 apply Structural.guard rfl
  exact validateStatements_structural _ 0 []

omit [Unicode] in
theorem validateResourcesFor_structural (bucket : Bytes) (sts : List Statement) (i : Nat) :
    Structural (validateResourcesFor (ε := ε) bucket i sts) := by
  induction sts generalizing i with
  | nil => exact structural_none
  | cons st rest ih => exact Structural.or (structural_map (fun _ => rfl) _) (ih _)

theorem ActionStatement.validate_structural (st : ActionStatement) (i : Nat) :
    Structural (st.validate (ε := ε) i) := by
  iterate 3 apply Structural.guard rfl
  exact structural_findSome (validateAction_structural _) _

/-- The structural checks of a user policy do not depend on the action check. -/
theorem validateUserPolicy_eq (up : UserPolicy) (check : Option (Bytes → Option ε)) :
    validateUserPolicy up check = (validateUserPolicy up none).or
      (checkActionLists check (up.statements.map fun st => ([], st.action))) := by
  rw [validateUserPolicy, validateUserPolicy]
  split
  · rfl
  · rw [Option.or_assoc]
    rfl

theorem validateUserPolicy_structural (up : UserPolicy) : Structural (validateUserPolicy (ε := ε) up none) := by
  apply Structural.guard rfl
  apply Structural.or (structural_findSome (fun (st, i) => ActionStatement.validate_structural st i) _)
  exact structural_none

/-- A user policy refused for its actions alone is accepted without the action check. -/
theorem validateUserPolicy_unchecked {up : UserPolicy} {check : Option (Bytes → Option ε)}
    (h : ∀ e ∈ validateUserPolicy up check, e.isUnknownAction = true) : validateUserPolicy (ε := ε) up none = none := by
  cases hnone : validateUserPolicy (ε := ε) up none with
  | none => rfl
  | some e =>
    have hfails : e.isUnknownAction = true := by
      apply h e
      rw [validateUserPolicy_eq, hnone]
      rfl
    rw [validateUserPolicy_structural up e hnone] at hfails
    cases hfails

end Validation

section Parsing

open Fallible

variable {ε : Type}

def Error.IsStructural (e : Error ε) : Prop := e.isUnknownAction = false

theorem failsWith_failOn {e : Option (Error ε)} (h : Structural e) : FailsWith Error.IsStructural (failOn e) := by
  cases e with
  | none => exact failsWith_ok ()
  | some e => exact failsWith_error (h e rfl)

theorem failsWith_normalizeAll (hook : Option (Bytes → Option Bytes)) {refuse : Bytes → Error ε}
    (h : ∀ e, (refuse e).IsStructural) (entries : List Bytes) :
    FailsWith Error.IsStructural (normalizeAll hook refuse entries) := by
  cases hook with
  | none => exact failsWith_ok entries
  | some f => exact FailsWith.mapM (fun e => failsWith_elim (h e)) entries

theorem Dialect.failsWith_decodePrincipal (d : Dialect) (name : StatementName) (data : Option Json) :
    FailsWith (Error.IsStructural (ε := ε)) (d.decodePrincipal name data) := by
  unfold Dialect.decodePrincipal
  split
  · exact failsWith_ok none
  · exact failsWith_ok none
  · split
    · exact failsWith_ok _
    · exact failsWith_error rfl
  · split
    · exact failsWith_error rfl
    · dsimp only
      split
      · exact failsWith_error rfl
      · apply FailsWith.map
        apply failsWith_normalizeAll
        exact fun _ => rfl

theorem Dialect.failsWith_stripPrefix (d : Dialect) (name : StatementName) (resources : List Bytes) :
    FailsWith (Error.IsStructural (ε := ε)) (d.stripPrefix name resources) := by
  unfold Dialect.stripPrefix
  split
  · exact failsWith_ok resources
  · apply FailsWith.mapM
    intro res
    exact failsWith_elim rfl

theorem Dialect.failsWith_parseStatement (d : Dialect) (i : Nat) (rs : RawStatement) :
    FailsWith (Error.IsStructural (ε := ε)) (d.parseStatement i rs) := by
  unfold Dialect.parseStatement
  refine (d.failsWith_decodePrincipal _ _).bind fun principal => ?_
  refine (d.failsWith_decodePrincipal _ _).bind fun notPrincipal => ?_
  refine (d.failsWith_stripPrefix _ _).bind fun resource => ?_
  refine FailsWith.bind ?_ fun resource => failsWith_ok _
  apply failsWith_normalizeAll
  exact fun _ => rfl

variable [Unicode] {d : Dialect} {unmarshal : Bytes → Option JsonDocument} {bucket text : Bytes}
  {check : Option (Bytes → Option ε)}

theorem Dialect.parse_eq : d.parse unmarshal bucket text check =
    (d.parse unmarshal bucket text none >>= fun p => failOn (checkActions check p.statement) >>= fun _ => .ok p) := by
  unfold Dialect.parse
  split
  · rfl
  · simp only [bind_assoc]
    rfl

theorem Dialect.failsWith_parse : FailsWith (Error.IsStructural (ε := ε)) (d.parse unmarshal bucket text none) := by
  unfold Dialect.parse
  split
  · exact failsWith_error rfl
  · refine FailsWith.bind (failsWith_elim (by rfl)) fun doc => ?_
    refine FailsWith.bind (failsWith_elim (by rfl)) fun raw => ?_
    refine (FailsWith.mapM (fun (rs, i) => d.failsWith_parseStatement i rs) _).bind fun statement => ?_
    refine (failsWith_failOn (Policy.validate_structural _)).bind fun _ => ?_
    refine (failsWith_failOn (validateResourcesFor_structural _ _ _)).bind fun _ => ?_
    exact failsWith_ok _

/-- A document refused for its actions alone is accepted without the action check. -/
theorem Dialect.parse_unchecked (h : ∀ e, d.parse unmarshal bucket text check = .error e → e.isUnknownAction = true) :
    ∃ p, d.parse unmarshal bucket text (none : Option (Bytes → Option ε)) = .ok p := by
  cases hnone : d.parse unmarshal bucket text (none : Option (Bytes → Option ε)) with
  | ok p => exact ⟨p, rfl⟩
  | error e =>
    have hfails : e.isUnknownAction = true := by
      apply h e
      rw [Dialect.parse_eq, hnone]
      rfl
    rw [Dialect.failsWith_parse e hnone] at hfails
    cases hfails

end Parsing

end S3Gateway.Policy
