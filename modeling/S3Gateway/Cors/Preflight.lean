import Mathlib.Data.List.Perm.Basic
import S3Gateway.Cors.Rules
import S3Gateway.Library.FirstMatch

/-! # Preflights over several rules

`AllowPreflight` takes the first rule that allows the origin and the method and asks only this
rule about the headers.  A later rule that allows the whole request is then not reached. -/

namespace S3Gateway.Cors

open Go

section Preflight

variable [Unicode]

/-- The rule allows the origin and the method of a preflight. -/
def Rule.allowsMethod (rule : Rule) (r : Request) : Bool :=
  rule.allowedOrigins.any (Policy.match_ · (r.header.get (str "Origin"))) &&
    rule.allowedMethods.contains (r.header.get (str "Access-Control-Request-Method"))

def requestedHeaders (r : Request) : List Bytes :=
  ((split (ch ',') (r.header.get (str "Access-Control-Request-Headers"))).map trimSpace).filter (· ≠ [])

/-- The rule allows every header a preflight asks for. -/
def Rule.allowsHeaders (rule : Rule) (r : Request) : Bool :=
  (requestedHeaders r).all (headerAllowed rule.allowedHeaders)

theorem allowPreflight_isSome (r : Request) (rules : List Rule) :
    (allowPreflight r rules).isSome = (rules.find? (·.allowsMethod r)).any (·.allowsHeaders r) := by
  have hmatch : matchRule rules (r.header.get (str "Origin")) (r.header.get (str "Access-Control-Request-Method")) =
      rules.find? (·.allowsMethod r) := rfl
  unfold allowPreflight
  dsimp only
  rw [hmatch]
  cases rules.find? (·.allowsMethod r) with
  | none => rfl
  | some rule =>
    change Option.isSome (if rule.allowsHeaders r = true then _ else _) = rule.allowsHeaders r
    split
    · rename_i hallowed
      rw [hallowed]
      rfl
    · rename_i hrefused
      rw [Bool.eq_false_iff.mpr hrefused]
      rfl

/-- A preflight is allowed when some rule allows all of it, except where the first rule for its origin
    and method refuses a header and a later one would allow it.  The order of the rules does not matter
    just where those for the origin and the method agree. -/
theorem allowPreflight_iff_exists_iff (r : Request) (rules : List Rule) :
    (((allowPreflight r rules).isSome = true ↔
        ∃ rule ∈ rules, rule.allowsMethod r = true ∧ rule.allowsHeaders r = true) ↔
      ¬FirstMatch.Shadowed (·.allowsMethod r) (·.allowsHeaders r) rules) ∧
    ((∀ rules' : List Rule, rules'.Perm rules → (allowPreflight r rules').isSome = (allowPreflight r rules).isSome) ↔
      ∀ a ∈ rules, ∀ b ∈ rules, a.allowsMethod r = true → b.allowsMethod r = true →
        a.allowsHeaders r = b.allowsHeaders r) := by
  simp only [allowPreflight_isSome]
  exact ⟨FirstMatch.any_find?_iff_exists_iff, FirstMatch.any_find?_perm_iff⟩

end Preflight

/-- One application may upload with its own headers, everybody may with any. -/
def narrowRule : Rule := ⟨[str "https://app.example.com"], [str "PUT"], [str "content-type"], [], 0⟩

def openRule : Rule := ⟨[str "*"], [str "PUT"], [str "*"], [], 0⟩

/-- The preflight of an upload from the application, with a header only the second rule allows. -/
def uploadPreflight : Request where
  method := str "OPTIONS"
  requestURI := str "/b/k"
  url := { path := str "/b/k" }
  host := str "s3.example"
  header := [(str "Origin", str "https://app.example.com"), (str "Access-Control-Request-Method", str "PUT"),
    (str "Access-Control-Request-Headers", str "x-amz-meta-a")]
  contentLength := 0
  remoteAddr := []

/-- The narrow rule hides the open one: what anybody else may send, the application may not. -/
theorem narrowRule_hides_openRule :
    let _ := asciiTables
    (allowPreflight uploadPreflight [narrowRule, openRule]).isSome = false ∧
      openRule.allowsMethod uploadPreflight = true ∧ openRule.allowsHeaders uploadPreflight = true ∧
      (allowPreflight uploadPreflight [openRule, narrowRule]).isSome = true := by
  intro _
  exact ⟨by decide +kernel, by decide +kernel, by decide +kernel, by decide +kernel⟩

end S3Gateway.Cors
