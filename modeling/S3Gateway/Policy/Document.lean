import S3Gateway.Policy.Condition
import S3Gateway.Library.Fallible

/-! # Policy documents

The document types of `policy/policy.go`, their validation, and the dialect
parser of `policy/dialect.go`.  `json.Unmarshal` of the document text is the one
step left open: `parse` takes it as an argument, so what is proved of a parsed
policy holds whatever text it was decoded from. -/

set_option linter.dupNamespace false

namespace S3Gateway.Policy

open Go

/-! ## Types -/

/-- `Principal`: everyone, or the listed `tenant/user` and `tenant/*` names. -/
structure Principal where
  all : Bool
  users : List Bytes
deriving DecidableEq

/-- `Statement`.  The compiled rune forms are functions of the fields below and
    are not stored. -/
structure Statement where
  sid : Bytes
  effect : Bytes
  principal : Option Principal
  notPrincipal : Option Principal
  action : List Bytes
  resource : List Bytes
  condition : Option Condition
deriving DecidableEq

structure Policy where
  version : Bytes
  statement : List Statement
deriving DecidableEq

/-- The members of one statement as they stand in the text, `none` when absent. -/
structure JsonStatement where
  sid : Bytes
  effect : Bytes
  principal : Option Json
  notPrincipal : Option Json
  action : Option Json
  resource : Option Json
  condition : Option Json

structure JsonDocument where
  version : Bytes
  statement : List JsonStatement

/-- `rawStatement`: decoded except for the principals, which the dialect reads. -/
structure RawStatement where
  sid : Bytes
  effect : Bytes
  principal : Option Json
  notPrincipal : Option Json
  action : List Bytes
  resource : List Bytes
  condition : Option Condition

def effectAllow : Bytes := str "Allow"
def effectDeny : Bytes := str "Deny"

def maxPolicyBytes : Nat := 20 * 1024
def maxPrincipalUsers : Nat := 100
def maxStatements : Nat := 20
def maxActionsPerStatement : Nat := 30
def maxResourcesPerStatement : Nat := 10
def maxPatternLen : Nat := 128
def maxConditionValues : Nat := 50

/-- `statementName(sid, i)`: how an error names a statement. -/
inductive StatementName where
  | sid (s : Bytes)
  | index (i : Nat)
deriving DecidableEq

def statementName (sid : Bytes) (i : Nat) : StatementName :=
  if sid = [] then .index i else .sid sid

/-- The errors of parsing and validating a document, one constructor per error
    text of the source with the values it quotes.  `ε` is what the caller's
    action checker reports. -/
inductive Error (ε : Type) where
  | tooLarge (len : Nat)
  | malformedJSON
  | version (v : Bytes)
  | noStatement
  | tooManyStatements (n : Nat)
  | duplicateSid (sid : Bytes) (first second : Nat)
  | effect (name : StatementName)
  | principalCount (name : StatementName)
  | notPrincipalAll (name : StatementName)
  | notPrincipalAllow (name : StatementName)
  | tooManyUsers (name : StatementName) (n : Nat)
  | invalidPrincipal (name : StatementName) (user : Bytes)
  | noAction (name : StatementName)
  | tooManyActions (name : StatementName) (n : Nat)
  | actionPrefix (name : StatementName) (action : Bytes)
  | actionTooLong (name : StatementName) (n : Nat)
  | noResource (name : StatementName)
  | tooManyResources (name : StatementName) (n : Nat)
  | resourceTooLong (name : StatementName) (n : Nat)
  | noOperator (name : StatementName)
  | tooManyValues (name : StatementName) (operator : Bytes) (n : Nat)
  | invalidSourceIP (name : StatementName)
  | malformedPrincipal (name : StatementName)
  | principalShape (name : StatementName)
  | normalizePrincipal (name : StatementName) (user : Bytes)
  | resourcePrefix (name : StatementName) (resource required : Bytes)
  | normalizeResource (name : StatementName) (resource : Bytes)
  | foreignResource (name : StatementName) (resource bucket : Bytes)
  | unknownActions (errs : List (Nat × Bytes × ε))

/-! ## Validation -/

section Validation

variable [Unicode] {ε : Type}

/-- `[a-z0-9]`. -/
def isNameStart (b : UInt8) : Bool := (ch 'a' ≤ b && b ≤ ch 'z') || (ch '0' ≤ b && b ≤ ch '9')

/-- `[a-z0-9_-]`. -/
def isNameByte (b : UInt8) : Bool := isNameStart b || b == ch '_' || b == ch '-'

/-- `[a-z0-9][a-z0-9_-]+`, the whole string. -/
def isPrincipalPart : Bytes → Bool
  | b :: rest => isNameStart b && !rest.isEmpty && rest.all isNameByte
  | [] => false

/-- `principalRegexp.MatchString(u)`: two parts around the first slash, the
    second of which may be a lone `*`. -/
def principalRegexp (u : Bytes) : Bool :=
  let (tenant, user, found) := cut (ch '/') u
  found && isPrincipalPart tenant && (isPrincipalPart user || user == [ch '*'])

def validatePrincipal (pr : Option Principal) (name : StatementName) : Option (Error ε) :=
  match pr with
  | none => none
  | some pr =>
    if maxPrincipalUsers < pr.users.length then some (.tooManyUsers name pr.users.length)
    else (pr.users.find? fun u => !principalRegexp u).map (.invalidPrincipal name)

def validateAction (name : StatementName) (a : Bytes) : Option (Error ε) :=
  if !hasPrefix (toLower a) (str "s3:") then some (.actionPrefix name a)
  else if maxPatternLen < a.length then some (.actionTooLong name a.length)
  else none

def validateCondition (c : Condition) (name : StatementName) : Option (Error ε) :=
  if c.ipAddress.isEmpty && c.notIPAddress.isEmpty then some (.noOperator name)
  else if maxConditionValues < c.ipAddress.length then
    some (.tooManyValues name (str "IpAddress") c.ipAddress.length)
  else if maxConditionValues < c.notIPAddress.length then
    some (.tooManyValues name (str "NotIpAddress") c.notIPAddress.length)
  else if c.compile.isNone then some (.invalidSourceIP name)
  else none

/-- `Statement.validate(name)`; `none` is the nil error. -/
def Statement.validate (st : Statement) (name : StatementName) : Option (Error ε) :=
  if st.effect ≠ effectAllow ∧ st.effect ≠ effectDeny then some (.effect name)
  else if st.principal.isNone = st.notPrincipal.isNone then some (.principalCount name)
  else if st.notPrincipal.any (·.all) then some (.notPrincipalAll name)
  else if st.notPrincipal.isSome ∧ st.effect ≠ effectDeny then some (.notPrincipalAllow name)
  else
    (validatePrincipal st.principal name).or <|
    (validatePrincipal st.notPrincipal name).or <|
    if st.action.isEmpty then some (.noAction name)
    else if maxActionsPerStatement < st.action.length then
      some (.tooManyActions name st.action.length)
    else
      (st.action.findSome? (validateAction name)).or <|
      if st.resource.isEmpty then some (.noResource name)
      else if maxResourcesPerStatement < st.resource.length then
        some (.tooManyResources name st.resource.length)
      else
        ((st.resource.find? (maxPatternLen < ·.length)).map
          fun res => Error.resourceTooLong name res.length).or <|
        match st.condition with
        | some c => validateCondition c name
        | none => none

/-- The statement loop of `Policy.validate`; `sids` are the Sids met so far with
    the positions they were met at. -/
def validateStatements : Nat → List Statement → List (Bytes × Nat) → Option (Error ε)
  | _, [], _ => none
  | i, st :: rest, sids =>
    match (if st.sid = [] then none else sids.lookup st.sid) with
    | some j => some (.duplicateSid st.sid j i)
    | none =>
      (st.validate (statementName st.sid i)).or
        (validateStatements (i + 1) rest
          (if st.sid = [] then sids else (st.sid, i) :: sids))

def Policy.validate (p : Policy) : Option (Error ε) :=
  if p.version ≠ [] ∧ p.version ≠ str "2012-10-17" ∧ p.version ≠ str "2008-10-17" then
    some (.version p.version)
  else if p.statement.isEmpty then some .noStatement
  else if maxStatements < p.statement.length then some (.tooManyStatements p.statement.length)
  else validateStatements 0 p.statement []

/-- `Policy.ValidateResourcesFor(bucket)`, from statement `i` on. -/
def validateResourcesFor (bucket : Bytes) : Nat → List Statement → Option (Error ε)
  | _, [] => none
  | i, st :: rest =>
    ((st.resource.find? fun res => res ≠ bucket && !hasPrefix res (bucket ++ str "/")).map
      fun res => Error.foreignResource (statementName st.sid i) res bucket).or
      (validateResourcesFor bucket (i + 1) rest)

end Validation

/-! ## Parsing -/

section Parsing

variable [Unicode] {ε : Type}

structure Dialect where
  principalKey : Bytes := []
  resourcePrefix : Bytes := []
  normalizePrincipal : Option (Bytes → Option Bytes) := none
  normalizeResource : Option (Bytes → Option Bytes) := none

/-- `Dialect.principalKey()`. -/
def Dialect.key (d : Dialect) : Bytes :=
  if d.principalKey = [] then str "S3RP" else d.principalKey

/-- Applies an optional rewriting hook to every entry, failing on the first entry
    it refuses. -/
def normalizeAll (hook : Option (Bytes → Option Bytes)) (refuse : Bytes → Error ε)
    (entries : List Bytes) : Except (Error ε) (List Bytes) :=
  match hook with
  | none => .ok entries
  | some f => entries.mapM fun e => (f e).elim (.error (refuse e)) .ok

def Dialect.decodePrincipal (d : Dialect) (name : StatementName) (data : Option Json) :
    Except (Error ε) (Option Principal) :=
  match data with
  | none | some .null => .ok none
  | some (.string s) =>
    if s = str "*" then .ok (some { all := true, users := [] }) else .error (.principalShape name)
  | some v =>
    match v.decodeMap decodeStringOrSlice with
    | none => .error (.malformedPrincipal name)
    | some members =>
      let users := (members.lookup d.key).getD []
      if users.isEmpty then .error (.principalShape name)
      else
        (normalizeAll d.normalizePrincipal (.normalizePrincipal name) users).map
          fun users => some { all := false, users }

/-- The `ResourcePrefix` step: the prefix is required and removed. -/
def Dialect.stripPrefix (d : Dialect) (name : StatementName) (resources : List Bytes) :
    Except (Error ε) (List Bytes) :=
  if d.resourcePrefix = [] then .ok resources
  else resources.mapM fun res =>
    (cutPrefix res d.resourcePrefix).elim (.error (.resourcePrefix name res d.resourcePrefix)) .ok

/-- The elements `json.Unmarshal` decodes with the types' own decoders: an absent
    list is empty, an absent or null condition is none. -/
def JsonStatement.decode (js : JsonStatement) : Option RawStatement := do
  let action ← (js.action.map decodeStringOrSlice).getD (some [])
  let resource ← (js.resource.map decodeStringOrSlice).getD (some [])
  let condition ←
    match js.condition with
    | none | some .null => some none
    | some v => (decodeCondition v).map some
  some { sid := js.sid, effect := js.effect, principal := js.principal,
         notPrincipal := js.notPrincipal, action, resource, condition }

/-- The body of `Parse`'s statement loop. -/
def Dialect.parseStatement (d : Dialect) (i : Nat) (rs : RawStatement) :
    Except (Error ε) Statement := do
  let name := statementName rs.sid i
  let principal ← d.decodePrincipal name rs.principal
  let notPrincipal ← d.decodePrincipal name rs.notPrincipal
  let resource ← d.stripPrefix name rs.resource
  let resource ← normalizeAll d.normalizeResource (.normalizeResource name) resource
  .ok { sid := rs.sid, effect := rs.effect, principal, notPrincipal, action := rs.action, resource,
        condition := rs.condition }

/-- `checkActions(check, ..)`: the joined errors of every statement's actions. -/
def checkActions (check : Option (Bytes → Option ε)) (statements : List Statement) :
    Option (Error ε) :=
  match check with
  | none => none
  | some check =>
    let errs := statements.zipIdx.flatMap fun (st, i) =>
      (st.action.filterMap check).map (i, st.sid, ·)
    if errs.isEmpty then none else some (.unknownActions errs)

def failOn (e : Option (Error ε)) : Except (Error ε) Unit := e.elim (.ok ()) .error

/-- `Dialect.Parse(bucket, text, check)`, with `unmarshal` for
    `json.Unmarshal(text, &doc)`. -/
def Dialect.parse (d : Dialect) (unmarshal : Bytes → Option JsonDocument) (bucket text : Bytes)
    (check : Option (Bytes → Option ε)) : Except (Error ε) Policy :=
  if maxPolicyBytes < text.length then .error (.tooLarge text.length)
  else do
    let doc ← (unmarshal text).elim (.error .malformedJSON) .ok
    let raw ← (doc.statement.mapM JsonStatement.decode).elim (.error .malformedJSON) .ok
    let statement ← raw.zipIdx.mapM fun (rs, i) => d.parseStatement i rs
    let p : Policy := { version := doc.version, statement }
    failOn p.validate
    failOn (validateResourcesFor bucket 0 p.statement)
    failOn (checkActions check p.statement)
    return p

theorem Dialect.parse_decoded (d : Dialect) {unmarshal : Bytes → Option JsonDocument} {text : Bytes} {doc : JsonDocument}
    (hlength : text.length ≤ maxPolicyBytes) (hdoc : unmarshal text = some doc) (bucket : Bytes)
    (check : Option (Bytes → Option ε)) :
    d.parse unmarshal bucket text check = d.parse (fun _ => some doc) bucket [] check := by
  have hnil : ¬maxPolicyBytes < ([] : Bytes).length := Nat.not_lt_zero _
  unfold Dialect.parse
  rw [if_neg (Nat.not_lt.mpr hlength), if_neg hnil, hdoc]

end Parsing

/-! ## What a parsed policy satisfies -/

/-- The shape evaluation relies on: a known effect, exactly one principal element,
    and exclusion only in a Deny. -/
structure Statement.WellFormed (st : Statement) : Prop where
  effect : st.effect = effectAllow ∨ st.effect = effectDeny
  principal : st.principal.isNone ≠ st.notPrincipal.isNone
  exclusion : st.notPrincipal.isSome → st.effect = effectDeny

section Parsed

variable [Unicode] {ε : Type}

theorem Statement.wellFormed_of_validate {st : Statement} {name : StatementName}
    (h : st.validate (ε := ε) name = none) : st.WellFormed := by
  unfold Statement.validate at h
  split at h
  · cases h
  rename_i heffect
  split at h
  · cases h
  rename_i hprincipal
  split at h
  · cases h
  split at h
  · cases h
  rename_i hexclusion
  refine ⟨?_, hprincipal, fun hsome => ?_⟩
  · by_contra hne
    exact heffect (not_or.mp hne)
  · by_contra hne
    exact hexclusion ⟨hsome, hne⟩

theorem Statement.compiles_of_validate {st : Statement} {name : StatementName} {c : Condition}
    (h : st.validate (ε := ε) name = none) (hc : st.condition = some c) : c.compile.isSome = true := by
  unfold Statement.validate at h
  iterate 4
    split at h
    · cases h
  obtain ⟨-, h⟩ := Option.or_eq_none_iff.mp h
  obtain ⟨-, h⟩ := Option.or_eq_none_iff.mp h
  iterate 2
    split at h
    · cases h
  obtain ⟨-, h⟩ := Option.or_eq_none_iff.mp h
  iterate 2
    split at h
    · cases h
  obtain ⟨-, h⟩ := Option.or_eq_none_iff.mp h
  rw [hc] at h
  dsimp only at h
  -- the compilation is the last of the checks, after the counts of both operators
  unfold validateCondition at h
  iterate 3
    split at h
    · cases h
  split at h
  · cases h
  · rename_i hcompiles
    simpa [Option.isSome_iff_ne_none] using hcompiles

theorem validate_of_validateStatements {i : Nat} {sts : List Statement}
    {sids : List (Bytes × Nat)} (h : validateStatements (ε := ε) i sts sids = none) :
    ∀ st ∈ sts, ∃ name, st.validate (ε := ε) name = none := by
  induction sts generalizing i sids with
  | nil => simp
  | cons st rest ih =>
    unfold validateStatements at h
    split at h
    · cases h
    · obtain ⟨hst, hrest⟩ := Option.or_eq_none_iff.mp h
      intro st' hmem
      cases hmem with
      | head => exact ⟨_, hst⟩
      | tail _ hmem => exact ih hrest st' hmem

theorem Policy.validate_statement {p : Policy} (h : p.validate (ε := ε) = none) :
    ∀ st ∈ p.statement, ∃ name, st.validate (ε := ε) name = none := by
  unfold Policy.validate at h
  split at h
  · cases h
  split at h
  · cases h
  split at h
  · cases h
  · exact validate_of_validateStatements h

theorem Policy.wellFormed_of_validate {p : Policy} (h : p.validate (ε := ε) = none) :
    ∀ st ∈ p.statement, st.WellFormed := by
  intro st hst
  obtain ⟨name, hvalid⟩ := Policy.validate_statement h st hst
  exact Statement.wellFormed_of_validate hvalid

omit [Unicode] in
theorem failOn_eq_ok {e : Option (Error ε)} {u : Unit} : failOn e = .ok u ↔ e = none := by
  cases e <;> simp [failOn]

theorem Dialect.validate_of_parse {d : Dialect} {unmarshal : Bytes → Option JsonDocument}
    {bucket text : Bytes} {check : Option (Bytes → Option ε)} {p : Policy}
    (h : d.parse unmarshal bucket text check = .ok p) : p.validate (ε := ε) = none := by
  unfold Dialect.parse at h
  split at h
  · cases h
  obtain ⟨_, -, h⟩ := Fallible.bind_eq_ok.mp h
  obtain ⟨_, -, h⟩ := Fallible.bind_eq_ok.mp h
  obtain ⟨_, -, h⟩ := Fallible.bind_eq_ok.mp h
  obtain ⟨_, hvalid, h⟩ := Fallible.bind_eq_ok.mp h
  obtain ⟨_, -, h⟩ := Fallible.bind_eq_ok.mp h
  obtain ⟨_, -, h⟩ := Fallible.bind_eq_ok.mp h
  cases h
  exact failOn_eq_ok.mp hvalid

end Parsed

/-- A policy whose statements all have the shape `validate` establishes, so that
    evaluating it never dereferences a missing principal. -/
structure ParsedPolicy where
  policy : Policy
  wellFormed : ∀ st ∈ policy.statement, st.WellFormed

/-- The result of a successful `Parse`. -/
def ParsedPolicy.ofParse [Unicode] {ε : Type} {d : Dialect}
    {unmarshal : Bytes → Option JsonDocument} {bucket text : Bytes}
    {check : Option (Bytes → Option ε)} {p : Policy}
    (h : d.parse unmarshal bucket text check = .ok p) : ParsedPolicy where
  policy := p
  wellFormed := Policy.wellFormed_of_validate (Dialect.validate_of_parse h)

end S3Gateway.Policy
