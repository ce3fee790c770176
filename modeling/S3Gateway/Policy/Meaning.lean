import Mathlib.Data.List.Perm.Basic
import Mathlib.Data.Option.Basic
import S3Gateway.Library.Fields
import S3Gateway.Policy.Evaluators

/-! # The meaning of a bucket policy

What a policy says, without the order of its statements and without strings: a statement
applies to a user, an action, a resource and a context, a Deny that applies decides, and
otherwise an Allow that applies.  `Decide` computes exactly this for every user whose names the
store accepts.  The principal test of the source is a prefix test on `tenant/user`; it is the
charset of the names that makes it one on tenants. -/

set_option linter.dupNamespace false

namespace S3Gateway.Policy

open Go

/-! ## Users and principal entries -/

theorem append_slash (tenant name : Bytes) : tenant ++ str "/" ++ name = tenant ++ ch '/' :: name := by
  rw [List.append_assoc]
  rfl

/-- A user of a tenant, both with names that `ValidateTenantName` and `ValidateUserName`
    accept. -/
structure User where
  tenant : Bytes
  name : Bytes
  tenant_valid : isPrincipalPart tenant = true
  name_valid : isPrincipalPart name = true

def User.principal (u : User) : Bytes := u.tenant ++ str "/" ++ u.name

theorem User.principal_eq (u : User) : u.principal = u.tenant ++ ch '/' :: u.name :=
  append_slash u.tenant u.name

inductive Entry where
  | user (tenant name : Bytes)
  | wholeTenant (tenant : Bytes)
deriving DecidableEq

/-- An entry as a reader understands it: `t/u` is the user `u` of `t`, `t/*` the tenant `t`. -/
def readEntry (e : Bytes) : Entry :=
  let (tenant, name, _) := cut (ch '/') e
  if name = [ch '*'] then .wholeTenant tenant else .user tenant name

def Entry.Names (u : User) : Entry → Prop
  | .user tenant name => u.tenant = tenant ∧ u.name = name
  | .wholeTenant tenant => u.tenant = tenant

theorem isNameByte_of_isNameStart {b : UInt8} (h : isNameStart b = true) : isNameByte b = true := by
  simp [isNameByte, h]

theorem all_isNameByte_of_isPrincipalPart {s : Bytes} (h : isPrincipalPart s = true) : s.all isNameByte = true := by
  cases s with
  | nil => rfl
  | cons b rest =>
    simp only [isPrincipalPart, Bool.and_eq_true] at h
    rw [List.all_cons, isNameByte_of_isNameStart h.1.1, h.2]
    rfl

theorem not_mem_of_isPrincipalPart {s : Bytes} {b : UInt8} (h : isPrincipalPart s = true) (hb : isNameByte b = false) :
    b ∉ s := by
  intro hmem
  have hname := List.all_eq_true.mp (all_isNameByte_of_isPrincipalPart h) b hmem
  rw [hb] at hname
  cases hname

theorem slash_not_mem_of_isPrincipalPart {s : Bytes} (h : isPrincipalPart s = true) : ch '/' ∉ s :=
  not_mem_of_isPrincipalPart h (by decide)

/-- A name of the source's form: a tenant and, after the slash, a user or a lone `*`. -/
theorem principalRegexp_cases {e : Bytes} (h : principalRegexp e = true) :
    ∃ tenant name, isPrincipalPart tenant = true ∧ e = tenant ++ ch '/' :: name ∧
      (isPrincipalPart name = true ∨ name = [ch '*']) := by
  rcases cut_cases (ch '/') e with ⟨-, hcut⟩ | ⟨tenant, name, -, heq, hcut⟩
  · simp [principalRegexp, hcut] at h
  · simp only [principalRegexp, hcut, Bool.true_and, Bool.and_eq_true, Bool.or_eq_true, beq_iff_eq] at h
    exact ⟨tenant, name, h.1, heq, h.2⟩

/-- What is before the first slash and what is after it are determined by the whole. -/
theorem append_slash_inj {a b c d : Bytes} (ha : ch '/' ∉ a) (hc : ch '/' ∉ c) :
    a ++ ch '/' :: b = c ++ ch '/' :: d ↔ a = c ∧ b = d := by
  constructor
  · exact Fields.append_sep_inj ha hc
  · rintro ⟨rfl, rfl⟩
    rfl

theorem hasSuffix_star_iff {tenant name : Bytes} (h : isPrincipalPart name = true ∨ name = [ch '*']) :
    hasSuffix (tenant ++ ch '/' :: name) (str "/*") = true ↔ name = [ch '*'] := by
  have strStar : str "/*" = [ch '/', ch '*'] := rfl
  rw [hasSuffix, List.isSuffixOf_iff_suffix]
  constructor
  · rintro ⟨front, heq⟩
    refine h.resolve_left fun hpart => ?_
    -- the last byte would be a star, which no name has
    have hne : name ≠ [] := by
      rintro rfl
      cases hpart
    have hlast : (front ++ [ch '/'] ++ [ch '*']).getLast? = (tenant ++ [ch '/'] ++ name).getLast? := by
      simpa [strStar] using congrArg List.getLast? heq
    rw [List.getLast?_concat, List.getLast?_append_of_ne_nil _ hne] at hlast
    have hstar : ch '*' ∈ name := List.mem_of_getLast? hlast.symm
    exact not_mem_of_isPrincipalPart hpart (by decide) hstar
  · rintro rfl
    exact ⟨tenant, rfl⟩

/-- The test of one entry, on the entries validation accepts and the users the store accepts.  The
    slash kept at the end of the prefix is what a tenant with a longer name does not have. -/
theorem matchEntry_iff {e : Bytes} (h : principalRegexp e = true) (u : User) :
    (e == u.principal || (hasSuffix e (str "/*") && hasPrefix u.principal (e.take (e.length - 1)))) = true ↔
      (readEntry e).Names u := by
  obtain ⟨tenant, name, htenant, rfl, hname⟩ := principalRegexp_cases h
  have hslash := slash_not_mem_of_isPrincipalPart htenant
  have hslash' := slash_not_mem_of_isPrincipalPart u.tenant_valid
  have hprincipal : u.principal = u.tenant ++ ch '/' :: u.name := u.principal_eq
  rw [Bool.or_eq_true, Bool.and_eq_true, beq_iff_eq, hprincipal, append_slash_inj hslash hslash',
    hasSuffix_star_iff hname, readEntry, cut_append hslash]
  by_cases hstar : name = [ch '*']
  · -- a tenant entry is `t/` up to its last byte
    subst hstar
    have htake : (tenant ++ [ch '/', ch '*']).take ((tenant ++ [ch '/', ch '*']).length - 1) = tenant ++ [ch '/'] := by
      rw [← List.dropLast_eq_take, List.dropLast_append_cons]
      rfl
    rw [htake, hasPrefix_iff]
    simp only [true_and, if_true, Entry.Names]
    constructor
    · rintro (⟨rfl, -⟩ | ⟨rest, hrest⟩)
      · rfl
      · rw [List.append_assoc, List.singleton_append, append_slash_inj hslash' hslash] at hrest
        exact hrest.1
    · intro heq
      exact .inr ⟨u.name, by rw [heq, List.append_assoc, List.singleton_append]⟩
  · simp only [hstar, false_and, or_false, if_false, Entry.Names]
    exact and_congr eq_comm eq_comm

theorem matchAnyPrincipal_iff {entries : List Bytes} (h : ∀ e ∈ entries, principalRegexp e = true) (u : User) :
    matchAnyPrincipal entries u.principal = true ↔ ∃ e ∈ entries, (readEntry e).Names u := by
  rw [matchAnyPrincipal, List.any_eq_true]
  constructor
  · rintro ⟨e, he, hmatch⟩
    exact ⟨e, he, (matchEntry_iff (h e he) u).mp hmatch⟩
  · rintro ⟨e, he, hnames⟩
    exact ⟨e, he, (matchEntry_iff (h e he) u).mpr hnames⟩

/-! ## Statements -/

/-- The source address, or the IPv4 address it is the mapped form of, lies in a value's range.  An
    unknown source lies in none. -/
def RequestContext.InRange (rc : RequestContext) (value : Bytes) : Prop :=
  rc.unmap.sourceIP.isValid = true ∧ ∃ range, parseIPValue value = some range ∧ range.contains rc.unmap.sourceIP = true

/-- Both operators hold: the source is in one of the ranges asked for, and in none of the excluded
    ones. -/
def Condition.Holds (c : Condition) (rc : RequestContext) : Prop :=
  (c.ipAddress ≠ [] → ∃ v ∈ c.ipAddress, rc.InRange v) ∧ ∀ v ∈ c.notIPAddress, ¬rc.InRange v

def Principal.Lists (pr : Principal) (u : User) : Prop := ∃ e ∈ pr.users, (readEntry e).Names u

/-- The user is covered: listed, or under `*`, or not listed by an exclusion. -/
def Statement.CoversUser (st : Statement) (u : User) : Prop :=
  (∃ pr, st.principal = some pr ∧ (pr.all = true ∨ pr.Lists u)) ∨ ∃ np, st.notPrincipal = some np ∧ ¬np.Lists u

section Meaning

variable [Unicode]

structure Statement.Applies (st : Statement) (u : User) (action resource : Bytes) (rc : RequestContext) : Prop where
  user : st.CoversUser u
  condition : ∀ c, st.condition = some c → c.Holds rc
  action : ∃ pattern ∈ st.action, match_ (toLower pattern) (toLower action) = true
  resource : ∃ pattern ∈ st.resource, match_ pattern resource = true

def Policy.Applies (p : Policy) (effect : Bytes) (u : User) (action resource : Bytes) (rc : RequestContext) : Prop :=
  ∃ st ∈ p.statement, st.effect = effect ∧ st.Applies u action resource rc

open scoped Classical in
noncomputable def Policy.meaning (p : Policy) (u : User) (action resource : Bytes) (rc : RequestContext) : Effect :=
  if p.Applies effectDeny u action resource rc then .deny
  else if p.Applies effectAllow u action resource rc then .allow
  else .none

end Meaning

/-! ## What validation establishes for evaluation -/

def Principal.Valid (pr : Principal) : Prop := ∀ e ∈ pr.users, principalRegexp e = true

structure Statement.Valid (st : Statement) : Prop where
  wellFormed : st.WellFormed
  principal : ∀ pr, st.principal = some pr → pr.Valid
  notPrincipal : ∀ np, st.notPrincipal = some np → np.Valid
  condition : ∀ c, st.condition = some c → c.compile.isSome = true

theorem Principal.valid_of_validatePrincipal {ε : Type} {pr : Option Principal} {name : StatementName}
    (h : validatePrincipal (ε := ε) pr name = none) : ∀ q, pr = some q → q.Valid := by
  rintro q rfl e he
  simp only [validatePrincipal] at h
  split at h
  · cases h
  · rw [Option.map_eq_none_iff, List.find?_eq_none] at h
    simpa using h e he

theorem Statement.valid_of_validate [Unicode] {ε : Type} {st : Statement} {name : StatementName}
    (h : st.validate (ε := ε) name = none) : st.Valid := by
  have hprincipals : validatePrincipal (ε := ε) st.principal name = none ∧
      validatePrincipal (ε := ε) st.notPrincipal name = none := by
    unfold Statement.validate at h
    iterate 4
      split at h
      · cases h
    obtain ⟨hprincipal, h⟩ := Option.or_eq_none_iff.mp h
    exact ⟨hprincipal, (Option.or_eq_none_iff.mp h).1⟩
  exact
    { wellFormed := Statement.wellFormed_of_validate h
      principal := Principal.valid_of_validatePrincipal hprincipals.1
      notPrincipal := Principal.valid_of_validatePrincipal hprincipals.2
      condition := fun _ hc => Statement.compiles_of_validate h hc }

/-! ## The source's tests and the meaning -/

theorem prefixesContain_iff {values : List Bytes} {prefixes : List Prefix} (h : parsePrefixes values = some prefixes)
    (rc : RequestContext) :
    (rc.unmap.sourceIP.isValid && prefixesContain prefixes rc.unmap.sourceIP) = true ↔ ∃ v ∈ values, rc.InRange v := by
  simp only [Bool.and_eq_true, prefixesContain, List.any_eq_true, mem_parsePrefixes h]
  constructor
  · rintro ⟨hvalid, range, ⟨v, hv, hparse⟩, hcontains⟩
    exact ⟨v, hv, hvalid, range, hparse, hcontains⟩
  · rintro ⟨v, hv, hvalid, range, hparse, hcontains⟩
    exact ⟨hvalid, range, ⟨v, hv, hparse⟩, hcontains⟩

theorem CompiledCondition.matches_eq (c : CompiledCondition) (rc : RequestContext) :
    c.matches rc =
      ((c.ipAddress.isEmpty || (rc.sourceIP.isValid && prefixesContain c.ipAddress rc.sourceIP)) &&
        (c.notIPAddress.isEmpty || !(rc.sourceIP.isValid && prefixesContain c.notIPAddress rc.sourceIP))) := by
  unfold CompiledCondition.matches
  generalize (rc.sourceIP.isValid && prefixesContain c.ipAddress rc.sourceIP) = inRange
  generalize (rc.sourceIP.isValid && prefixesContain c.notIPAddress rc.sourceIP) = excluded
  cases c.ipAddress.isEmpty <;> cases c.notIPAddress.isEmpty <;> cases inRange <;> cases excluded <;> rfl

theorem CompiledCondition.matches_iff {c : Condition} {compiled : CompiledCondition} (h : c.compile = some compiled)
    (rc : RequestContext) : compiled.matches rc.unmap = true ↔ c.Holds rc := by
  simp only [Condition.compile, Option.bind_eq_bind, Option.bind_eq_some_iff] at h
  obtain ⟨ips, hips, nots, hnots, heq⟩ := h
  cases heq
  rw [CompiledCondition.matches_eq, Bool.and_eq_true, Bool.or_eq_true, Bool.or_eq_true, Bool.not_eq_true',
    ← Bool.not_eq_true, prefixesContain_iff hips, prefixesContain_iff hnots, parsePrefixes_isEmpty hips,
    parsePrefixes_isEmpty hnots, List.isEmpty_iff, List.isEmpty_iff, Condition.Holds]
  refine and_congr or_iff_not_imp_left ?_
  constructor
  · rintro (hnil | hnone) v hv hin
    · exact absurd hv (hnil ▸ List.not_mem_nil)
    · exact hnone ⟨v, hv, hin⟩
  · intro hall
    exact .inr fun ⟨v, hv, hin⟩ => hall v hv hin

theorem Statement.Valid.matchCondition_iff {st : Statement} (h : st.Valid) (rc : RequestContext) :
    st.matchCondition rc.unmap = true ↔ ∀ c, st.condition = some c → c.Holds rc := by
  unfold Statement.matchCondition
  cases hc : st.condition with
  | none => simp
  | some c =>
    obtain ⟨compiled, hcompiled⟩ := Option.isSome_iff_exists.mp (h.condition c hc)
    simp [hcompiled, CompiledCondition.matches_iff hcompiled]

theorem Statement.Valid.matchPrincipal_iff {st : Statement} (h : st.Valid) (u : User) :
    st.matchPrincipal u.principal = some true ↔ st.CoversUser u := by
  unfold Statement.matchPrincipal Statement.CoversUser
  have hone := h.wellFormed.principal
  cases hp : st.principal with
  | some pr =>
    -- exactly one of the two elements is there
    have hnp : st.notPrincipal = none := by simpa [hp] using hone
    simp [hnp, matchAnyPrincipal_iff (h.principal pr hp), Principal.Lists]
  | none =>
    cases hn : st.notPrincipal with
    | none => simp [hp, hn] at hone
    | some np =>
      have hlists := matchAnyPrincipal_iff (h.notPrincipal np hn) u
      simp [← Bool.not_eq_true, hlists, Principal.Lists]

section Meaning

variable [Unicode]

theorem Statement.Valid.covers_iff {st : Statement} (h : st.Valid) (u : User) (action resource : Bytes)
    (rc : RequestContext) :
    st.covers u.principal action resource rc = true ↔ st.Applies u action resource rc := by
  rw [Statement.covers, Statement.applies, Bool.and_eq_true, Bool.and_eq_true, Bool.and_eq_true, beq_iff_eq,
    h.matchPrincipal_iff, h.matchCondition_iff, List.any_eq_true, List.any_eq_true]
  constructor
  · rintro ⟨⟨⟨huser, hcondition⟩, haction⟩, hresource⟩
    exact ⟨huser, hcondition, haction, hresource⟩
  · rintro ⟨huser, hcondition, haction, hresource⟩
    exact ⟨⟨⟨huser, hcondition⟩, haction⟩, hresource⟩

theorem Policy.decide_eq_meaning {p : Policy} (h : ∀ st ∈ p.statement, st.Valid) (u : User) (action resource : Bytes)
    (rc : RequestContext) :
    ∃ dec, p.decide u.principal action resource rc = some dec ∧ dec.effect = p.meaning u action resource rc := by
  let q : ParsedPolicy := ⟨p, fun st hst => (h st hst).wellFormed⟩
  -- what covers a request applies to it, statement by statement
  have happlies : ∀ effect, (∃ st ∈ p.statement, (st.effect == effect && st.covers u.principal action resource rc) = true) ↔
      p.Applies effect u action resource rc := by
    intro effect
    simp only [Policy.Applies, Bool.and_eq_true, beq_iff_eq]
    exact exists_congr fun st => and_congr_right fun hst => by rw [(h st hst).covers_iff]
  have hdeny : (q.decide u.principal action rc resource).effect = .deny ↔ p.Applies effectDeny u action resource rc :=
    (q.decide_deny_iff u.principal action rc resource).trans (happlies effectDeny)
  have hallow : (q.decide u.principal action rc resource).effect = .allow ↔
      p.Applies effectAllow u action resource rc ∧ ¬p.Applies effectDeny u action resource rc := by
    rw [q.decide_allow_iff, ← happlies effectAllow, ← happlies effectDeny, not_exists]
    simp only [not_and, Bool.not_eq_true]
    rfl
  refine ⟨q.decide u.principal action rc resource, (Option.some_get _).symm, ?_⟩
  -- a Deny first, then an Allow
  unfold Policy.meaning
  split
  · rename_i hd
    exact hdeny.mpr hd
  · rename_i hd
    split
    · rename_i ha
      exact hallow.mpr ⟨ha, hd⟩
    · rename_i ha
      cases heffect : (q.decide u.principal action rc resource).effect with
      | none => rfl
      | deny => exact absurd (hdeny.mp heffect) hd
      | allow => exact absurd (hallow.mp heffect).1 ha

end Meaning

/-! ## Order and repetition do not matter -/

def Principal.Reorders (pr pr' : Principal) : Prop := pr.all = pr'.all ∧ pr.users.Perm pr'.users

def Condition.Reorders (c c' : Condition) : Prop :=
  c.ipAddress.Perm c'.ipAddress ∧ c.notIPAddress.Perm c'.notIPAddress

/-- The same statement with the entries of its lists in another order.  The Sid is free: it names the
    statement and says nothing. -/
structure Statement.Reorders (st st' : Statement) : Prop where
  effect : st.effect = st'.effect
  principal : Option.Rel Principal.Reorders st.principal st'.principal
  notPrincipal : Option.Rel Principal.Reorders st.notPrincipal st'.notPrincipal
  action : st.action.Perm st'.action
  resource : st.resource.Perm st'.resource
  condition : Option.Rel Condition.Reorders st.condition st'.condition

/-- The statements of one policy are those of the other, in any order, any number of times, and with
    their entries in any order. -/
def Policy.Rearranges (p q : Policy) : Prop :=
  (∀ st ∈ p.statement, ∃ st' ∈ q.statement, st.Reorders st') ∧
    ∀ st' ∈ q.statement, ∃ st ∈ p.statement, st.Reorders st'

theorem Principal.Reorders.lists_iff {pr pr' : Principal} (h : pr.Reorders pr') (u : User) : pr.Lists u ↔ pr'.Lists u :=
  exists_congr fun _ => and_congr_left fun _ => h.2.mem_iff

theorem Condition.Reorders.holds_iff {c c' : Condition} (h : c.Reorders c') (rc : RequestContext) :
    c.Holds rc ↔ c'.Holds rc := by
  have hnil : c.ipAddress = [] ↔ c'.ipAddress = [] := by
    rw [← List.length_eq_zero_iff, ← List.length_eq_zero_iff, h.1.length_eq]
  simp only [Condition.Holds, ne_eq, hnil, h.1.mem_iff, h.2.mem_iff]

theorem parsePrefixes_isSome_iff (values : List Bytes) :
    (parsePrefixes values).isSome = true ↔ ∀ v ∈ values, (parseIPValue v).isSome = true := by
  induction values with
  | nil => simp [parsePrefixes]
  | cons v vs ih =>
    simp only [parsePrefixes] at ih
    cases hv : parseIPValue v with
    | none => simp [parsePrefixes, hv]
    | some range =>
      rw [List.forall_mem_cons, ← ih]
      cases hvs : vs.mapM parseIPValue with
      | none => simp [parsePrefixes, hv, hvs]
      | some ranges => simp [parsePrefixes, hv, hvs]

theorem Condition.compile_isSome_iff (c : Condition) :
    c.compile.isSome = true ↔
      (∀ v ∈ c.ipAddress, (parseIPValue v).isSome = true) ∧ ∀ v ∈ c.notIPAddress, (parseIPValue v).isSome = true := by
  rw [← parsePrefixes_isSome_iff, ← parsePrefixes_isSome_iff, Condition.compile]
  cases parsePrefixes c.ipAddress <;> cases parsePrefixes c.notIPAddress <;> simp

theorem Principal.Reorders.valid {pr pr' : Principal} (h : pr.Reorders pr') (hvalid : pr.Valid) : pr'.Valid :=
  fun e he => hvalid e (h.2.mem_iff.mpr he)

theorem Condition.Reorders.compiles {c c' : Condition} (h : c.Reorders c') (hcompiles : c.compile.isSome = true) :
    c'.compile.isSome = true := by
  simp only [Condition.compile_isSome_iff, h.1.mem_iff, h.2.mem_iff] at hcompiles ⊢
  exact hcompiles

/-- What a relation carries over from `some` to `some` holds of the optional element. -/
theorem forall_some_of_rel {α : Type} {r : α → α → Prop} {P : α → Prop} (hr : ∀ a b, r a b → P a → P b)
    {x y : Option α} (h : Option.Rel r x y) (hx : ∀ a, x = some a → P a) : ∀ b, y = some b → P b := by
  rintro b rfl
  cases h with
  | some hab => exact hr _ _ hab (hx _ rfl)

theorem isNone_eq_of_rel {α : Type} {r : α → α → Prop} {x y : Option α} (h : Option.Rel r x y) :
    x.isNone = y.isNone := by
  cases h <;> rfl

theorem Statement.Reorders.valid {st st' : Statement} (h : st.Reorders st') (hvalid : st.Valid) : st'.Valid where
  wellFormed :=
    { effect := h.effect ▸ hvalid.wellFormed.effect
      principal := by
        rw [← isNone_eq_of_rel h.principal, ← isNone_eq_of_rel h.notPrincipal]
        exact hvalid.wellFormed.principal
      exclusion := by
        rw [← h.effect, ← Option.not_isNone, ← isNone_eq_of_rel h.notPrincipal, Option.not_isNone]
        exact hvalid.wellFormed.exclusion }
  principal := forall_some_of_rel (P := Principal.Valid) (fun _ _ => Principal.Reorders.valid) h.principal hvalid.principal
  notPrincipal := forall_some_of_rel (P := Principal.Valid) (fun _ _ => Principal.Reorders.valid) h.notPrincipal hvalid.notPrincipal
  condition := forall_some_of_rel (P := fun c => c.compile.isSome = true) (fun _ _ => Condition.Reorders.compiles) h.condition hvalid.condition

theorem exists_some_iff_of_rel {α : Type} {r : α → α → Prop} {P : α → Prop} (hr : ∀ a b, r a b → (P a ↔ P b))
    {x y : Option α} (h : Option.Rel r x y) : (∃ a, x = some a ∧ P a) ↔ ∃ b, y = some b ∧ P b := by
  cases h with
  | none => simp
  | some hab => simpa using hr _ _ hab

theorem forall_some_iff_of_rel {α : Type} {r : α → α → Prop} {P : α → Prop} (hr : ∀ a b, r a b → (P a ↔ P b))
    {x y : Option α} (h : Option.Rel r x y) : (∀ a, x = some a → P a) ↔ ∀ b, y = some b → P b := by
  cases h with
  | none => simp
  | some hab => simpa using hr _ _ hab

theorem Statement.Reorders.coversUser_iff {st st' : Statement} (h : st.Reorders st') (u : User) :
    st.CoversUser u ↔ st'.CoversUser u := by
  refine or_congr (exists_some_iff_of_rel ?_ h.principal) (exists_some_iff_of_rel ?_ h.notPrincipal)
  · intro pr pr' hpr
    rw [hpr.1, hpr.lists_iff]
  · intro np np' hnp
    rw [hnp.lists_iff]

section Meaning

variable [Unicode]

theorem Statement.Reorders.applies_iff {st st' : Statement} (h : st.Reorders st') (u : User) (action resource : Bytes)
    (rc : RequestContext) : st.Applies u action resource rc ↔ st'.Applies u action resource rc := by
  have huser := h.coversUser_iff u
  have hcondition := forall_some_iff_of_rel (fun _ _ hc => hc.holds_iff rc) h.condition
  constructor
  · intro ⟨hu, hc, ha, hr⟩
    refine ⟨huser.mp hu, hcondition.mp hc, ?_, ?_⟩
    · simpa only [h.action.mem_iff] using ha
    · simpa only [h.resource.mem_iff] using hr
  · intro ⟨hu, hc, ha, hr⟩
    refine ⟨huser.mpr hu, hcondition.mpr hc, ?_, ?_⟩
    · simpa only [h.action.mem_iff] using ha
    · simpa only [h.resource.mem_iff] using hr

theorem Policy.Rearranges.applies_iff {p q : Policy} (h : p.Rearranges q) (effect : Bytes) (u : User)
    (action resource : Bytes) (rc : RequestContext) :
    p.Applies effect u action resource rc ↔ q.Applies effect u action resource rc := by
  constructor
  · rintro ⟨st, hst, heffect, happlies⟩
    obtain ⟨st', hst', hreorders⟩ := h.1 st hst
    exact ⟨st', hst', hreorders.effect ▸ heffect, (hreorders.applies_iff u action resource rc).mp happlies⟩
  · rintro ⟨st', hst', heffect, happlies⟩
    obtain ⟨st, hst, hreorders⟩ := h.2 st' hst'
    exact ⟨st, hst, hreorders.effect ▸ heffect, (hreorders.applies_iff u action resource rc).mpr happlies⟩

theorem Policy.Rearranges.meaning_eq {p q : Policy} (h : p.Rearranges q) (u : User) (action resource : Bytes)
    (rc : RequestContext) : p.meaning u action resource rc = q.meaning u action resource rc := by
  have hdeny := h.applies_iff effectDeny u action resource rc
  have hallow := h.applies_iff effectAllow u action resource rc
  classical
  exact if_congr hdeny rfl (if_congr hallow rfl rfl)

/-- A policy that `Parse` returned decides as it reads: evaluation finds a principal element in every
    statement, a Deny that applies wins over an Allow that applies, and the order or the repetition
    of statements and of their entries changes nothing. -/
theorem parse_decides_meaning {ε : Type} (d : Dialect) (unmarshal : Bytes → Option JsonDocument) (bucket text : Bytes)
    (check : Option (Bytes → Option ε)) (p : Policy) (h : d.parse unmarshal bucket text check = .ok p) (u : User)
    (action resource : Bytes) (rc : RequestContext) :
    (p.decide u.principal action resource rc).map (·.effect) = some (p.meaning u action resource rc) ∧
      ∀ q, p.Rearranges q →
        (q.decide u.principal action resource rc).map (·.effect) = some (p.meaning u action resource rc) := by
  have hvalid : ∀ st ∈ p.statement, st.Valid := by
    intro st hst
    obtain ⟨name, hname⟩ := Policy.validate_statement (Dialect.validate_of_parse h) st hst
    exact Statement.valid_of_validate hname
  constructor
  · obtain ⟨dec, hdec, heffect⟩ := Policy.decide_eq_meaning hvalid u action resource rc
    rw [hdec, Option.map_some, heffect]
  · intro q hq
    have hvalid' : ∀ st' ∈ q.statement, st'.Valid := by
      intro st' hst'
      obtain ⟨st, hst, hreorders⟩ := hq.2 st' hst'
      exact hreorders.valid (hvalid st hst)
    obtain ⟨dec, hdec, heffect⟩ := Policy.decide_eq_meaning hvalid' u action resource rc
    rw [hdec, Option.map_some, heffect, hq.meaning_eq]

end Meaning

/-- A user of a tenant whose name starts with the name of the tenant `samplePolicy` exempts. -/
def neighbour : User := ⟨str "tab", str "al", by decide, by decide⟩

/-- `samplePolicy` with the denial first, the grant twice, and the resources of one grant in the other
    order. -/
def shuffledPolicy : Policy where
  version := str "2012-10-17"
  statement := [
    { sid := [], effect := str "Deny", principal := none,
      notPrincipal := some { all := false, users := [str "ta/*"] }, action := [str "S3:*"],
      resource := [str "b/log/?"],
      condition := some { ipAddress := [], notIPAddress := [str "10.0.0.0/8"] } },
    { sid := str "open", effect := str "Allow", principal := some { all := true, users := [] },
      notPrincipal := none, action := [str "s3:GetObject"], resource := [str "b", str "b/*"],
      condition := none },
    { sid := str "open", effect := str "Allow", principal := some { all := true, users := [] },
      notPrincipal := none, action := [str "s3:GetObject"], resource := [str "b/*", str "b"],
      condition := none }]

theorem Statement.Reorders.refl (st : Statement) : st.Reorders st where
  effect := rfl
  principal := by cases st.principal <;> constructor; exact ⟨rfl, .refl _⟩
  notPrincipal := by cases st.notPrincipal <;> constructor; exact ⟨rfl, .refl _⟩
  action := .refl _
  resource := .refl _
  condition := by cases st.condition <;> constructor; exact ⟨.refl _, .refl _⟩

theorem samplePolicy_rearranges : samplePolicy.Rearranges shuffledPolicy := by
  have hswap : Statement.Reorders samplePolicy.statement[0] shuffledPolicy.statement[1] :=
    { effect := rfl
      principal := .some ⟨rfl, .refl _⟩
      notPrincipal := .none
      action := .refl _
      resource := .swap _ _ _
      condition := .none }
  constructor
  · refine List.forall_mem_cons.mpr ⟨?_, List.forall_mem_cons.mpr ⟨?_, List.forall_mem_nil _⟩⟩
    · exact ⟨_, .tail _ (.tail _ (.head _)), .refl _⟩
    · exact ⟨_, .head _, .refl _⟩
  · refine List.forall_mem_cons.mpr ⟨?_, List.forall_mem_cons.mpr ⟨?_, List.forall_mem_cons.mpr ⟨?_,
      List.forall_mem_nil _⟩⟩⟩
    · exact ⟨_, .tail _ (.head _), .refl _⟩
    · exact ⟨_, .head _, hswap⟩
    · exact ⟨_, .head _, .refl _⟩

theorem samplePolicy_denies_neighbour :
    let _ := asciiTables
    ({} : Dialect).parse (decodesOnly sampleText sampleDocument) (str "b") sampleText
        (none : Option (Bytes → Option Empty)) = .ok samplePolicy ∧
      samplePolicy.Rearranges shuffledPolicy ∧
      samplePolicy.meaning neighbour (str "s3:GetObject") (str "b/log/1") ⟨.zero⟩ = .deny ∧
      (shuffledPolicy.decide neighbour.principal (str "s3:GetObject") (str "b/log/1") ⟨.zero⟩).map (·.effect) =
        some .deny := by
  let _ := asciiTables
  obtain ⟨hdecides, hrearranged⟩ := parse_decides_meaning _ _ _ _ _ _ samplePolicy_parsed neighbour
    (str "s3:GetObject") (str "b/log/1") ⟨.zero⟩
  have hdeny : samplePolicy.decide neighbour.principal (str "s3:GetObject") (str "b/log/1") ⟨.zero⟩ =
      some ⟨.deny, 1⟩ := by rfl
  rw [hdeny] at hdecides
  have hmeaning : samplePolicy.meaning neighbour (str "s3:GetObject") (str "b/log/1") ⟨.zero⟩ = .deny :=
    (Option.some.inj hdecides).symm
  exact ⟨samplePolicy_parsed, samplePolicy_rearranges, hmeaning, hmeaning ▸ hrearranged _ samplePolicy_rearranges⟩

end S3Gateway.Policy
