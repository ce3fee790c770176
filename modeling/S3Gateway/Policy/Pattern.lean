import S3Gateway.Go.Utf8

/-! # Wildcard patterns

`policy.Match` and the rune-level functions the evaluators call. -/

namespace S3Gateway.Policy

open Go

def star : Rune := 42
def question : Rune := 63

/-- The loop of `matchRunes`.  `pat` and `val` are what is left from the indices
    `p` and `v` on; `back` is what is left after the last `*` seen and from the
    value index it is retried at (`star` and `starV`).  The fuel bounds the number
    of turns. -/
def matchLoop : Nat → List Rune → List Rune → Option (List Rune × List Rune) → Bool
  | 0, _, _, _ => false
  | _ + 1, pat, [], _ => pat.all (· == star)
  | fuel + 1, pat, v :: vs, back =>
    match pat, back with
    | q :: ps, _ =>
      if q = question ∨ q = v then matchLoop fuel ps vs back
      else if q = star then matchLoop fuel ps (v :: vs) (some (ps, v :: vs))
      else
        match back with
        | some (ps', _ :: ws) => matchLoop fuel ps' ws (some (ps', ws))
        | _ => false
    | [], some (ps', _ :: ws) => matchLoop fuel ps' ws (some (ps', ws))
    | [], _ => false

/-- `matchRunes(pat, val)`.  Each `*` is entered once, each entry is retried at
    most once per value rune, and between two retries both lists only shrink. -/
def matchRunes (pat val : List Rune) : Bool :=
  matchLoop ((pat.length + 1) * (val.length + 1) * (pat.length + val.length + 2)) pat val none

/-- `Match(pattern, value)`. -/
def match_ (pattern value : Bytes) : Bool := matchRunes (runes pattern) (runes value)

/-- `matchIndexRunes(patterns, value)`, with `none` for `-1`. -/
def matchIndexRunes (patterns : List (List Rune)) (value : List Rune) : Option Nat :=
  patterns.findIdx? (matchRunes · value)

def matchAnyRunes (patterns : List (List Rune)) (value : List Rune) : Bool :=
  (matchIndexRunes patterns value).isSome

def patternRunes (patterns : List Bytes) : List (List Rune) := patterns.map runes

def lowerPatternRunes [Unicode] (patterns : List Bytes) : List (List Rune) :=
  patterns.map fun p => runes (toLower p)

theorem matchAnyRunes_eq_any (patterns : List (List Rune)) (value : List Rune) :
    matchAnyRunes patterns value = patterns.any (matchRunes · value) := by
  rw [matchAnyRunes, matchIndexRunes, List.findIdx?_isSome]

theorem matchAnyRunes_patternRunes (patterns : List Bytes) (value : Bytes) :
    matchAnyRunes (patternRunes patterns) (runes value) = patterns.any (match_ · value) := by
  rw [matchAnyRunes_eq_any, patternRunes, List.any_map]
  rfl

theorem matchAnyRunes_lowerPatternRunes [Unicode] (patterns : List Bytes) (value : Bytes) :
    matchAnyRunes (lowerPatternRunes patterns) (runes (toLower value)) =
      patterns.any fun p => match_ (toLower p) (toLower value) := by
  rw [matchAnyRunes_eq_any, lowerPatternRunes, List.any_map]
  rfl

end S3Gateway.Policy
