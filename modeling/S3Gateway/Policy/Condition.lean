import S3Gateway.Go.Utf8
import S3Gateway.Go.Netip
import S3Gateway.Go.Json

/-! # Source-address conditions

`policy/condition.go`: the `IpAddress` and `NotIpAddress` operators on the
`aws:SourceIp` key. -/

namespace S3Gateway.Policy

open Go

/-- `StringOrSlice.UnmarshalJSON`: a string alone, or an array of strings.  JSON
    `null` decodes as a string and so yields one empty entry. -/
def decodeStringOrSlice (v : Json) : Option (List Bytes) :=
  match v.decodeString with
  | some single => some [single]
  | none => v.decodeStrings

/-- `RequestContext`: the zero address means the source is unknown. -/
structure RequestContext where
  sourceIP : Addr
deriving DecidableEq

/-- `Condition`: the operator values as written. -/
structure Condition where
  ipAddress : List Bytes
  notIPAddress : List Bytes
deriving DecidableEq

/-- What `compile` parses a condition's values to. -/
structure CompiledCondition where
  ipAddress : List Prefix
  notIPAddress : List Prefix
deriving DecidableEq

/-- `parseIPValue(v)`: a CIDR prefix, or a plain address as a full-length
    prefix.  A zoned address is refused. -/
def parseIPValue (v : Bytes) : Option Prefix :=
  if ch '/' ∈ v then parsePrefix v
  else do
    let a ← parseAddr v
    if a.zone.isEmpty then some (prefixFrom a.unmap a.unmap.bitLen) else none

def parsePrefixes (values : List Bytes) : Option (List Prefix) := values.mapM parseIPValue

theorem parsePrefixes_isEmpty {values : List Bytes} {prefixes : List Prefix}
    (h : parsePrefixes values = some prefixes) : prefixes.isEmpty = values.isEmpty := by
  unfold parsePrefixes at h
  cases values with
  | nil =>
    cases h
    rfl
  | cons v vs =>
    simp only [List.mapM_cons, Option.bind_eq_bind, Option.bind_eq_some_iff] at h
    obtain ⟨p, -, ps, -, heq⟩ := h
    cases heq
    rfl

theorem mem_parsePrefixes {values : List Bytes} {prefixes : List Prefix} (h : parsePrefixes values = some prefixes)
    {range : Prefix} : range ∈ prefixes ↔ ∃ v ∈ values, parseIPValue v = some range := by
  induction values generalizing prefixes with
  | nil =>
    cases h
    simp
  | cons v vs ih =>
    simp only [parsePrefixes, List.mapM_cons, Option.bind_eq_bind, Option.bind_eq_some_iff] at h
    obtain ⟨head, hhead, tail, htail, heq⟩ := h
    cases heq
    simp [ih htail, hhead, eq_comm]

/-- `Condition.compile`.  `none` is the error that marks the condition invalid. -/
def Condition.compile (c : Condition) : Option CompiledCondition := do
  let ipAddress ← parsePrefixes c.ipAddress
  let notIPAddress ← parsePrefixes c.notIPAddress
  some { ipAddress, notIPAddress }

def prefixesContain (prefixes : List Prefix) (a : Addr) : Bool := prefixes.any (·.contains a)

/-- `Condition.match(rc)`.  An unknown source fails `IpAddress` and passes
    `NotIpAddress`. -/
def CompiledCondition.matches (c : CompiledCondition) (rc : RequestContext) : Bool :=
  if !c.ipAddress.isEmpty &&
      !(rc.sourceIP.isValid && prefixesContain c.ipAddress rc.sourceIP) then false
  else if !c.notIPAddress.isEmpty &&
      (rc.sourceIP.isValid && prefixesContain c.notIPAddress rc.sourceIP) then false
  else true

variable [Unicode]

def sourceIPKey : Bytes := str "aws:SourceIp"

/-- The values of one operator: every key must be `aws:SourceIp` up to case, and
    some value must be given. -/
def operatorValues (keys : List (Bytes × List Bytes)) : Option (List Bytes) := do
  let values ← keys.mapM fun (key, vs) => if equalFold key sourceIPKey then some vs else none
  if values.flatten.isEmpty then none else some values.flatten

/-- `Condition.UnmarshalJSON`: the whole value is decoded first, and only the two operators are
    known. -/
def decodeCondition (v : Json) : Option Condition := do
  let raw ← v.decodeMap (Json.decodeMap decodeStringOrSlice)
  raw.foldlM (fun c (op, keys) =>
    if op = str "IpAddress" then (operatorValues keys).map fun vs => { c with ipAddress := vs }
    else if op = str "NotIpAddress" then
      (operatorValues keys).map fun vs => { c with notIPAddress := vs }
    else none) { ipAddress := [], notIPAddress := [] }

end S3Gateway.Policy
