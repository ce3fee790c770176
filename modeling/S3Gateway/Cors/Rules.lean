import S3Gateway.Policy.Pattern
import S3Gateway.Go.Http

/-! # CORS rules

The `cors` package as far as answering a preflight and decorating a response goes. -/

namespace S3Gateway.Cors

open Go

structure Rule where
  allowedOrigins : List Bytes
  allowedMethods : List Bytes
  allowedHeaders : List Bytes
  exposeHeaders : List Bytes
  maxAgeSeconds : Int

/-- What `Rule.Validate` finds wrong with a rule. -/
inductive RuleError where
  | noOrigin
  | noMethod
  | method (m : Bytes)
  | maxAge
deriving DecidableEq

/-- `Rule.Validate()`; `none` is the nil error. -/
def Rule.validate (r : Rule) : Option RuleError :=
  if r.allowedOrigins.length = 0 then some .noOrigin
  else if r.allowedMethods.length = 0 then some .noMethod
  else
    ((r.allowedMethods.find? (· ∉ [str "GET", str "PUT", str "POST", str "DELETE", str "HEAD"])).map
      RuleError.method).or (if r.maxAgeSeconds < 0 then some .maxAge else none)

/-- `Match(rules, origin, method)`. -/
def matchRule (rules : List Rule) (origin method : Bytes) : Option Rule :=
  rules.find? fun rule =>
    rule.allowedOrigins.any (Policy.match_ · origin) && rule.allowedMethods.contains method

def setAllowOrigin (h : Header) (rule : Rule) (origin : Bytes) : Header :=
  if rule.allowedOrigins.contains (str "*") then h.set (str "Access-Control-Allow-Origin") (str "*")
  else
    (h.set (str "Access-Control-Allow-Origin") origin).set (str "Access-Control-Allow-Credentials")
      (str "true")

/-- `SetHeaders(w, r, rules)`, on the headers the response has so far. -/
def setHeaders (h : Header) (r : Request) (rules : List Rule) : Header :=
  let origin := r.header.get (str "Origin")
  if origin = [] ∨ rules.length = 0 then h
  else
    match matchRule rules origin r.method with
    | none => h
    | some rule =>
      let h := setAllowOrigin h rule origin
      let h :=
        if 0 < rule.exposeHeaders.length then
          h.set (str "Access-Control-Expose-Headers") (join rule.exposeHeaders (str ", "))
        else h
      h.set (str "Vary") (str "Origin")

section

variable [Unicode]

def headerAllowed (allowed : List Bytes) (header : Bytes) : Bool :=
  allowed.any fun a => Policy.match_ (toLower a) (toLower header)

/-- `AllowPreflight(w, r, rules)`: the response headers, or `none` for a refusal. -/
def allowPreflight (r : Request) (rules : List Rule) : Option Header := do
  let origin := r.header.get (str "Origin")
  let rule ← matchRule rules origin (r.header.get (str "Access-Control-Request-Method"))
  let reqHeaders := r.header.get (str "Access-Control-Request-Headers")
  let requested := ((split (ch ',') reqHeaders).map trimSpace).filter (· ≠ [])
  if requested.all (headerAllowed rule.allowedHeaders) then
    let h : Header :=
      if reqHeaders ≠ [] then [(str "Access-Control-Allow-Headers", reqHeaders)] else []
    let h := setAllowOrigin h rule origin
    let h := h.set (str "Access-Control-Allow-Methods") (join rule.allowedMethods (str ", "))
    let h :=
      if 0 < rule.maxAgeSeconds then
        h.set (str "Access-Control-Max-Age") (formatInt rule.maxAgeSeconds)
      else h
    some (h.set (str "Vary")
      (str "Origin, Access-Control-Request-Method, Access-Control-Request-Headers"))
  else none

end

end S3Gateway.Cors
