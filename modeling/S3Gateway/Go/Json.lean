import S3Gateway.Go.Strconv
import S3Gateway.Go.Url
import S3Gateway.Go.Utf8

/-! # JSON as `encoding/json` reads and writes it

A `json.RawMessage` is kept as the value it denotes, and the decoders below are
what `json.Unmarshal` does with such a value for the few Go types the program
decodes into.  JSON `null` leaves a string or a number at its zero value, and of
an object's repeated keys the last one wins, once all of them were decoded.  Of what
`json.Marshal` writes only strings are needed. -/

namespace Go

inductive Json where
  | null
  | bool (b : Bool)
  | number (literal : Bytes)
  | string (s : Bytes)
  | array (elems : List Json)
  | object (members : List (Bytes × Json))

namespace Json

/-- `json.Unmarshal(v, &s)` for a `string`. -/
def decodeString : Json → Option Bytes
  | null => some []
  | string s => some s
  | _ => none

/-- `json.Unmarshal(v, &n)` for an `int64`. -/
def decodeInt64 : Json → Option Int
  | null => some 0
  | number literal => parseInt 10 64 literal
  | _ => none

/-- `json.Unmarshal(v, &l)` for a `[]json.RawMessage`. -/
def decodeArray : Json → Option (List Json)
  | null => some []
  | array l => some l
  | _ => none

/-- `json.Unmarshal(v, &l)` for a `[]string`. -/
def decodeStrings (v : Json) : Option (List Bytes) := do
  let l ← v.decodeArray
  l.mapM decodeString

/-- The members of a Go map: of a repeated key only the last one is left. -/
def lastMembers {α : Type} : List (Bytes × α) → List (Bytes × α)
  | [] => []
  | (k, v) :: rest => if rest.any (·.1 = k) then lastMembers rest else (k, v) :: lastMembers rest

/-- `json.Unmarshal(v, &m)` for a map.  A member that a later one replaces is decoded too, and its
    failure is one of the whole. -/
def decodeMap {α : Type} (decode : Json → Option α) : Json → Option (List (Bytes × α))
  | null => some []
  | object ms => (ms.mapM fun m => (decode m.2).map (m.1, ·)).map lastMembers
  | _ => none

/-- `json.Unmarshal(v, &m)` for a `map[string]string`. -/
def decodeStringMap : Json → Option (List (Bytes × Bytes)) := decodeMap decodeString

end Json

/-! ## Strings in a text -/

/-- How `appendString` writes an ASCII byte; `escapeHTML` is set in `json.Marshal`. -/
def marshalByte (b : UInt8) : Bytes :=
  if b = ch '\\' ∨ b = ch '"' then [ch '\\', b]
  else if b = 0x08 then str "\\b"
  else if b = 0x0C then str "\\f"
  else if b = ch '\n' then str "\\n"
  else if b = ch '\r' then str "\\r"
  else if b = ch '\t' then str "\\t"
  else if b < 0x20 ∨ b ∈ [ch '<', ch '>', ch '&'] then
    str "\\u00" ++ (percentByte b).tail.map lowerByte
  else [b]

/-- The loop of `appendString`, with the number of bytes left as fuel. -/
def marshalLoop : Nat → Bytes → Bytes
  | 0, _ | _, [] => []
  | fuel + 1, b :: rest =>
    if b < 0x80 then marshalByte b ++ marshalLoop fuel rest
    else
      let (r, size) := decodeRune (b :: rest)
      let written :=
        if r = runeError ∧ size = 1 then str "\\ufffd"
        else if r = 0x2028 ∨ r = 0x2029 then str "\\u202" ++ [ch '0' + (r % 16).toUInt8]
        else (b :: rest).take size
      written ++ marshalLoop fuel ((b :: rest).drop size)

/-- `json.Marshal(s)`. -/
def marshalString (s : Bytes) : Bytes := [ch '"'] ++ marshalLoop s.length s ++ [ch '"']

/-- `json.Marshal(l)` for a `[]string` that is not nil. -/
def marshalStrings (l : List Bytes) : Bytes := str "[" ++ join (l.map marshalString) (str ",") ++ str "]"

example : marshalStrings [str "a\"b", str "<é"] = str "[\"a\\\"b\",\"\\u003cé\"]" := by decide +kernel

def decodesOnly {α : Type} (text : Bytes) (value : α) (raw : Bytes) : Option α :=
  if raw = text then some value else none

theorem decodesOnly_self {α : Type} (text : Bytes) (value : α) : decodesOnly text value text = some value :=
  if_pos rfl

end Go
