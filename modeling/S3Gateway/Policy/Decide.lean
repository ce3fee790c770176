import S3Gateway.Library.FirstMatch
import S3Gateway.Policy.Document
import S3Gateway.Policy.Pattern

/-! # Evaluating a policy

`Policy.Decide` and the two precomputed evaluators `DenyEvaluatorFor` and
`AllowEvaluatorFor`, as `policy/policy.go` computes them.  A statement without
either principal element makes the Go code dereference nil; here that is `none`,
and `ParsedPolicy` rules it out.  The three traversals are then shown to agree:
all of them are instances of one first-match scan. -/

set_option linter.dupNamespace false

namespace S3Gateway.Policy

open Go

inductive Effect where
  | none
  | allow
  | deny
deriving DecidableEq, Repr

/-- `Decision`: `statement` is the index of the deciding statement, `-1` for none. -/
structure Decision where
  effect : Effect
  statement : Int
deriving DecidableEq, Repr

/-! ## The source's functions -/

def matchAnyPrincipal (entries : List Bytes) (principal : Bytes) : Bool :=
  entries.any fun e =>
    e == principal || (hasSuffix e (str "/*") && hasPrefix principal (e.take (e.length - 1)))

def Statement.matchPrincipal (st : Statement) (principal : Bytes) : Option Bool :=
  match st.principal, st.notPrincipal with
  | some pr, _ => some (pr.all || matchAnyPrincipal pr.users principal)
  | none, some np => some (!matchAnyPrincipal np.users principal)
  | none, none => none

def Statement.matchCondition (st : Statement) (rc : RequestContext) : Bool :=
  match st.condition with
  | none => true
  | some c =>
    match c.compile with
    -- an invalid condition fails closed: it never grants and always denies
    | none => st.effect == effectDeny
    | some compiled => compiled.matches rc

section Evaluation

variable [Unicode]

def Statement.actionRunes (st : Statement) : List (List Rune) := lowerPatternRunes st.action

def Statement.resourceRunes (st : Statement) : List (List Rune) := patternRunes st.resource

/-- The statement loop of `Decide`, from statement `i` on with the result so far. -/
def decideLoop (principal : Bytes) (rc : RequestContext) (actionRunes resourceRunes : List Rune) :
    Nat → List Statement → Decision → Option Decision
  | _, [], result => some result
  | i, st :: rest, result => do
    let named ← st.matchPrincipal principal
    let next := decideLoop principal rc actionRunes resourceRunes (i + 1) rest
    if !named then next result
    else if !st.matchCondition rc then next result
    else if !matchAnyRunes st.actionRunes actionRunes then next result
    else if !matchAnyRunes st.resourceRunes resourceRunes then next result
    else if st.effect = effectDeny then some { effect := .deny, statement := i }
    else if result.effect = .none then next { effect := .allow, statement := i }
    else next result

/-- Only the unmapped form of an IPv4-mapped source can match an IPv4 prefix. -/
def RequestContext.unmap (rc : RequestContext) : RequestContext := { sourceIP := rc.sourceIP.unmap }

def Policy.decide (p : Policy) (principal action resource : Bytes) (rc : RequestContext) :
    Option Decision :=
  decideLoop principal rc.unmap (runes (toLower action)) (runes resource) 0 p.statement
    { effect := .none, statement := -1 }

/-- `DenyEvaluator`: `denyStatements[i]` is where `denyResources[i]` came from. -/
structure DenyEvaluator where
  denyResources : List (List Rune)
  denyStatements : List Nat
  aligned : denyStatements.length = denyResources.length

def DenyEvaluator.empty : DenyEvaluator := ⟨[], [], rfl⟩

/-- What one matched statement adds in the filling pass. -/
def DenyEvaluator.add (e : DenyEvaluator) (i : Nat) (resources : List (List Rune)) :
    DenyEvaluator where
  denyResources := e.denyResources ++ resources
  denyStatements := e.denyStatements ++ List.replicate resources.length i
  aligned := by simp [e.aligned]

/-- The closure `matched` of `DenyEvaluatorFor`. -/
def Statement.denyMatched (principal : Bytes) (rc : RequestContext) (actionRunes : List Rune)
    (st : Statement) : Option Bool :=
  if st.effect ≠ effectDeny then some false
  else do
    let named ← st.matchPrincipal principal
    some (named && st.matchCondition rc && matchAnyRunes st.actionRunes actionRunes)

/-- The sizing pass. -/
def countResources (matched : Statement → Option Bool) : List Statement → Nat → Option Nat
  | [], n => some n
  | st :: rest, n => do
    if ← matched st then countResources matched rest (n + st.resourceRunes.length)
    else countResources matched rest n

/-- The filling pass. -/
def fillResources (matched : Statement → Option Bool) :
    Nat → List Statement → DenyEvaluator → Option DenyEvaluator
  | _, [], e => some e
  | i, st :: rest, e => do
    if ← matched st then fillResources matched (i + 1) rest (e.add i st.resourceRunes)
    else fillResources matched (i + 1) rest e

def Policy.denyEvaluatorFor (p : Policy) (principal action : Bytes) (rc : RequestContext) :
    Option DenyEvaluator := do
  let matched := Statement.denyMatched principal rc.unmap (runes (toLower action))
  let n ← countResources matched p.statement 0
  if n = 0 then some .empty else fillResources matched 0 p.statement .empty

structure AllowEvaluator where
  allowResources : List (List Rune)

def allowLoop (principal : Bytes) (rc : RequestContext) (actionRunes : List Rune) :
    List Statement → AllowEvaluator → Option AllowEvaluator
  | [], e => some e
  | st :: rest, e =>
    let next := allowLoop principal rc actionRunes rest
    if st.effect ≠ effectAllow then next e
    else do
      let named ← st.matchPrincipal principal
      if !named then next e
      else if !st.matchCondition rc then next e
      else if !matchAnyRunes st.actionRunes actionRunes then next e
      else next { allowResources := e.allowResources ++ st.resourceRunes }

def Policy.allowEvaluatorFor (p : Policy) (principal action : Bytes) (rc : RequestContext) :
    Option AllowEvaluator :=
  allowLoop principal rc.unmap (runes (toLower action)) p.statement { allowResources := [] }

end Evaluation

namespace AllowEvaluator

def alwaysDenies (e : AllowEvaluator) : Bool := e.allowResources.length == 0

def allowsRunes (e : AllowEvaluator) (resource : List Rune) : Bool :=
  if e.allowResources.length = 0 then false else matchAnyRunes e.allowResources resource

def allows (e : AllowEvaluator) (resource : Bytes) : Bool := e.allowsRunes (runes resource)

end AllowEvaluator

namespace DenyEvaluator

def alwaysAllows (e : DenyEvaluator) : Bool := e.denyResources.length == 0

def deniesRunes (e : DenyEvaluator) (resource : List Rune) : Bool :=
  if e.denyResources.length = 0 then false else matchAnyRunes e.denyResources resource

def denies (e : DenyEvaluator) (resource : Bytes) : Bool := e.deniesRunes (runes resource)

/-- `DenyingStatement(resource)`; `aligned` keeps the lookup in range. -/
def denyingStatement (e : DenyEvaluator) (resource : List Rune) : Int :=
  match h : matchIndexRunes e.denyResources resource with
  | some i =>
    have hi : i < e.denyStatements.length := by
      obtain ⟨hlt, -⟩ := List.findIdx?_eq_some_iff_getElem.mp h
      rw [e.aligned]
      exact hlt
    e.denyStatements[i]
  | none => -1

end DenyEvaluator

def Policy.mentionsPrincipal (p : Policy) (principal : Bytes) : Bool :=
  p.statement.any fun st =>
    st.effect == effectAllow &&
      st.principal.any fun pr => pr.all || matchAnyPrincipal pr.users principal

/-! ### User policies -/

structure ActionStatement where
  effect : Bytes
  action : List Bytes
deriving DecidableEq

/-- `UserPolicy`; the nil pointer is `none` where one is held. -/
structure UserPolicy where
  statements : List ActionStatement
deriving DecidableEq

/-- The loop of `UserPolicy.Decide`.  An effect other than the two known ones is
    ignored. -/
def userDecideLoop [Unicode] (actionRunes : List Rune) :
    Nat → List ActionStatement → Decision → Decision
  | _, [], result => result
  | i, st :: rest, result =>
    if !matchAnyRunes (lowerPatternRunes st.action) actionRunes then
      userDecideLoop actionRunes (i + 1) rest result
    else if st.effect = effectDeny then { effect := .deny, statement := i }
    else if st.effect = effectAllow ∧ result.effect ≠ .allow then
      userDecideLoop actionRunes (i + 1) rest { effect := .allow, statement := i }
    else userDecideLoop actionRunes (i + 1) rest result

def UserPolicy.decide [Unicode] (up : Option UserPolicy) (action : Bytes) : Decision :=
  match up with
  | none => { effect := .allow, statement := -1 }
  | some up =>
    if up.statements.length = 0 then { effect := .allow, statement := -1 }
    else userDecideLoop (runes (toLower action)) 0 up.statements { effect := .deny, statement := -1 }

def UserPolicy.allows [Unicode] (up : Option UserPolicy) (action : Bytes) : Bool :=
  (UserPolicy.decide up action).effect == .allow

/-! ## What the traversals compute -/

theorem Statement.WellFormed.matchPrincipal_isSome {st : Statement} (h : st.WellFormed)
    (principal : Bytes) : ∃ b, st.matchPrincipal principal = some b := by
  unfold Statement.matchPrincipal
  cases hp : st.principal with
  | some pr => exact ⟨_, rfl⟩
  | none =>
    cases hn : st.notPrincipal with
    | some np => exact ⟨_, rfl⟩
    | none =>
      have hne := h.principal
      rw [hp, hn] at hne
      exact absurd rfl hne

theorem effectAllow_ne_effectDeny : effectAllow ≠ effectDeny := by decide

theorem Statement.WellFormed.effect_ne_deny {st : Statement} (h : st.WellFormed) :
    st.effect ≠ effectDeny ↔ st.effect = effectAllow := by
  constructor
  · intro hne
    exact h.effect.resolve_right hne
  · intro he
    rw [he]
    exact effectAllow_ne_effectDeny

section Meaning

variable [Unicode]

/-- The principal, the condition and some action pattern match. -/
def Statement.applies (st : Statement) (principal action : Bytes) (rc : RequestContext) : Bool :=
  st.matchPrincipal principal == some true && st.matchCondition rc.unmap &&
    st.action.any fun p => match_ (toLower p) (toLower action)

/-- The statement applies and some resource pattern matches. -/
def Statement.covers (st : Statement) (principal action resource : Bytes) (rc : RequestContext) :
    Bool :=
  st.applies principal action rc && st.resource.any (match_ · resource)

def Statement.denies (st : Statement) (principal action resource : Bytes) (rc : RequestContext) :
    Bool :=
  st.effect == effectDeny && st.covers principal action resource rc

def Statement.grants (st : Statement) (principal action resource : Bytes) (rc : RequestContext) :
    Bool :=
  st.effect == effectAllow && st.covers principal action resource rc

/-- A scan's outcome as the source's `Decision`. -/
def decisionOf : FirstMatch.Outcome → Decision
  | .denied i => { effect := .deny, statement := i }
  | .allowed i => { effect := .allow, statement := i }
  | .unmatched => { effect := .none, statement := -1 }

variable (principal action resource : Bytes) (rc : RequestContext)

theorem covers_eq_of_matchPrincipal {st : Statement} {named : Bool}
    (h : st.matchPrincipal principal = some named) :
    st.covers principal action resource rc =
      (named && st.matchCondition rc.unmap &&
        matchAnyRunes st.actionRunes (runes (toLower action)) &&
        matchAnyRunes st.resourceRunes (runes resource)) := by
  rw [Statement.covers, Statement.applies, Statement.actionRunes, Statement.resourceRunes,
    matchAnyRunes_lowerPatternRunes, matchAnyRunes_patternRunes, h]
  cases named <;> rfl

/-- One turn of `decideLoop`: a covered Deny ends the scan, a covered Allow is
    remembered unless an earlier one was, anything else is skipped. -/
theorem decideLoop_cons {st : Statement} (h : st.WellFormed) (i : Nat) (rest : List Statement)
    (result : Decision) :
    decideLoop principal rc.unmap (runes (toLower action)) (runes resource) i (st :: rest) result =
      if st.denies principal action resource rc then some { effect := .deny, statement := i }
      else
        decideLoop principal rc.unmap (runes (toLower action)) (runes resource) (i + 1) rest
          (if st.grants principal action resource rc ∧ result.effect = .none then
            { effect := .allow, statement := i } else result) := by
  obtain ⟨named, hnamed⟩ := h.matchPrincipal_isSome principal
  have hcovers := covers_eq_of_matchPrincipal principal action resource rc hnamed
  rw [decideLoop, hnamed, Statement.denies, Statement.grants, hcovers]
  simp only [Option.bind_eq_bind, Option.bind_some]
  cases named with
  | false => simp
  | true =>
    cases st.matchCondition rc.unmap with
    | false => simp
    | true =>
      cases matchAnyRunes st.actionRunes (runes (toLower action)) with
      | false => simp
      | true =>
        cases matchAnyRunes st.resourceRunes (runes resource) with
        | false => simp
        | true =>
          by_cases hd : st.effect = effectDeny
          · simp [hd]
          · have ha : st.effect = effectAllow := h.effect_ne_deny.mp hd
            by_cases hr : result.effect = .none
            · simp [ha, hr, effectAllow_ne_effectDeny]
            · simp [ha, hr, effectAllow_ne_effectDeny]

theorem decideLoop_eq_scan {sts : List Statement} (h : ∀ st ∈ sts, st.WellFormed) (i : Nat)
    (seen : FirstMatch.Outcome) (hseen : (decisionOf seen).effect ≠ .deny) :
    decideLoop principal rc.unmap (runes (toLower action)) (runes resource) i sts (decisionOf seen) =
      some (decisionOf (FirstMatch.scan (·.denies principal action resource rc)
        (·.grants principal action resource rc) i sts seen)) := by
  induction sts generalizing i seen with
  | nil => rfl
  | cons st rest ih =>
    have hrest : ∀ st' ∈ rest, st'.WellFormed := fun st' hm => h st' (List.mem_cons_of_mem _ hm)
    rw [decideLoop_cons principal action resource rc (h st List.mem_cons_self), FirstMatch.scan]
    by_cases hd : st.denies principal action resource rc = true
    · simp [hd, decisionOf]
    · simp only [hd, Bool.false_eq_true, if_false]
      cases seen with
      | denied k => exact absurd rfl hseen
      | allowed k =>
        have hnew : ((decisionOf (.allowed k)).effect = .none) = False := by simp [decisionOf]
        have hkeep : (FirstMatch.Outcome.allowed k == .unmatched) = false := rfl
        simp only [hnew, hkeep, and_false, if_false, Bool.and_false, Bool.false_eq_true]
        exact ih hrest (i + 1) _ hseen
      | unmatched =>
        by_cases hg : st.grants principal action resource rc = true
        · simp only [hg, decisionOf, and_self, if_true]
          exact ih hrest (i + 1) (.allowed i) (by simp [decisionOf])
        · simp only [hg, Bool.false_eq_true, false_and, if_false, Bool.false_and]
          exact ih hrest (i + 1) _ hseen

theorem decide_eq_scan {p : Policy} (h : ∀ st ∈ p.statement, st.WellFormed) :
    p.decide principal action resource rc =
      some (decisionOf (FirstMatch.scan (·.denies principal action resource rc)
        (·.grants principal action resource rc) 0 p.statement .unmatched)) := by
  rw [Policy.decide]
  exact decideLoop_eq_scan principal action resource rc h 0 .unmatched (by simp [decisionOf])

/-! ### The evaluators -/

def Statement.deniesUnder (st : Statement) (principal action : Bytes) (rc : RequestContext) : Bool :=
  st.effect == effectDeny && st.applies principal action rc

def Statement.grantsUnder (st : Statement) (principal action : Bytes) (rc : RequestContext) : Bool :=
  st.effect == effectAllow && st.applies principal action rc

theorem applies_eq_of_matchPrincipal {st : Statement} {named : Bool}
    (h : st.matchPrincipal principal = some named) :
    st.applies principal action rc =
      (named && st.matchCondition rc.unmap &&
        matchAnyRunes st.actionRunes (runes (toLower action))) := by
  rw [Statement.applies, Statement.actionRunes, matchAnyRunes_lowerPatternRunes, h]
  cases named <;> rfl

theorem denyMatched_eq {st : Statement} (h : st.WellFormed) :
    st.denyMatched principal rc.unmap (runes (toLower action)) =
      some (st.deniesUnder principal action rc) := by
  obtain ⟨named, hnamed⟩ := h.matchPrincipal_isSome principal
  rw [Statement.denyMatched, Statement.deniesUnder, hnamed,
    applies_eq_of_matchPrincipal principal action rc hnamed]
  by_cases hd : st.effect = effectDeny
  · simp [hd]
  · simp [hd]

omit [Unicode] in
theorem countResources_eq {matched : Statement → Option Bool} {keep : Statement → Bool}
    {sts : List Statement} (h : ∀ st ∈ sts, matched st = some (keep st)) (n : Nat) :
    countResources matched sts n =
      some (n + (FirstMatch.patterns keep Statement.resourceRunes sts).length) := by
  induction sts generalizing n with
  | nil => rfl
  | cons st rest ih =>
    have hrest : ∀ st' ∈ rest, matched st' = some (keep st') :=
      fun st' hm => h st' (List.mem_cons_of_mem _ hm)
    rw [countResources, h st List.mem_cons_self, FirstMatch.patterns]
    cases keep st with
    | false => simpa using ih hrest n
    | true =>
      simp only [Option.bind_eq_bind, Option.bind_some, if_true, ih hrest, List.length_append]
      congr 1
      omega

omit [Unicode] in
/-- What the filling pass leaves: the patterns of the matched statements after
    those already there, each with the index of its statement. -/
theorem fillResources_eq {matched : Statement → Option Bool} {keep : Statement → Bool}
    {sts : List Statement} (h : ∀ st ∈ sts, matched st = some (keep st)) (i : Nat)
    (e : DenyEvaluator) :
    ∃ e', fillResources matched i sts e = some e' ∧
      e'.denyResources = e.denyResources ++ FirstMatch.patterns keep Statement.resourceRunes sts ∧
      e'.denyStatements =
        e.denyStatements ++ FirstMatch.sources keep Statement.resourceRunes i sts := by
  induction sts generalizing i e with
  | nil => exact ⟨e, rfl, by simp [FirstMatch.patterns], by simp [FirstMatch.sources]⟩
  | cons st rest ih =>
    have hrest : ∀ st' ∈ rest, matched st' = some (keep st') :=
      fun st' hm => h st' (List.mem_cons_of_mem _ hm)
    rw [fillResources, h st List.mem_cons_self, FirstMatch.patterns, FirstMatch.sources]
    cases keep st with
    | false => simpa using ih hrest (i + 1) e
    | true =>
      obtain ⟨e', hfill, hres, hsrc⟩ := ih hrest (i + 1) (e.add i st.resourceRunes)
      refine ⟨e', by simpa using hfill, ?_, ?_⟩
      · simp [hres, DenyEvaluator.add]
      · simp [hsrc, DenyEvaluator.add]

theorem denyEvaluatorFor_eq {p : Policy} (h : ∀ st ∈ p.statement, st.WellFormed) :
    ∃ e, p.denyEvaluatorFor principal action rc = some e ∧
      e.denyResources = FirstMatch.patterns (·.deniesUnder principal action rc)
        Statement.resourceRunes p.statement ∧
      e.denyStatements = FirstMatch.sources (·.deniesUnder principal action rc)
        Statement.resourceRunes 0 p.statement := by
  have hmatched : ∀ st ∈ p.statement,
      st.denyMatched principal rc.unmap (runes (toLower action)) =
        some (st.deniesUnder principal action rc) :=
    fun st hm => denyMatched_eq principal action rc (h st hm)
  rw [Policy.denyEvaluatorFor]
  simp only [countResources_eq hmatched, Nat.zero_add, Option.bind_eq_bind, Option.bind_some]
  split
  · -- nothing matched: the empty evaluator is what the filling pass would build
    rename_i hzero
    have hempty := List.eq_nil_of_length_eq_zero hzero
    refine ⟨.empty, rfl, hempty.symm, ?_⟩
    have hlen := FirstMatch.sources_length (·.deniesUnder principal action rc)
      Statement.resourceRunes 0 p.statement
    rw [hzero] at hlen
    exact (List.eq_nil_of_length_eq_zero hlen).symm
  · obtain ⟨e, hfill, hres, hsrc⟩ := fillResources_eq hmatched 0 .empty
    exact ⟨e, hfill, by simpa [DenyEvaluator.empty] using hres,
      by simpa [DenyEvaluator.empty] using hsrc⟩

theorem allowLoop_eq {sts : List Statement} (h : ∀ st ∈ sts, st.WellFormed) (e : AllowEvaluator) :
    allowLoop principal rc.unmap (runes (toLower action)) sts e =
      some { allowResources := e.allowResources ++
        FirstMatch.patterns (·.grantsUnder principal action rc) Statement.resourceRunes sts } := by
  induction sts generalizing e with
  | nil => simp [allowLoop, FirstMatch.patterns]
  | cons st rest ih =>
    have hrest : ∀ st' ∈ rest, st'.WellFormed := fun st' hm => h st' (List.mem_cons_of_mem _ hm)
    obtain ⟨named, hnamed⟩ := (h st List.mem_cons_self).matchPrincipal_isSome principal
    rw [allowLoop, FirstMatch.patterns, Statement.grantsUnder, hnamed,
      applies_eq_of_matchPrincipal principal action rc hnamed]
    by_cases ha : st.effect = effectAllow
    · simp only [ha, ne_eq, not_true, if_false, Option.bind_eq_bind, Option.bind_some, beq_self_eq_true,
        Bool.true_and, ih hrest]
      cases named <;> cases st.matchCondition rc.unmap <;>
        cases matchAnyRunes st.actionRunes (runes (toLower action)) <;> simp
    · simp [ha, ih hrest]

end Meaning

end S3Gateway.Policy
