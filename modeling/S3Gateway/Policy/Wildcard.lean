import S3Gateway.Library.Glob
import S3Gateway.Policy.Pattern

/-! # What a wildcard pattern matches

The loop of `matchRunes` is the matcher for patterns with gaps, where `*` is the gap.  It
tests for a literal match before it tests for a wildcard, so a `*` of the pattern that stands
at a `*` of the value is taken for that rune alone. -/

namespace S3Gateway.Policy

open Go

/-- `pat[p] == '?' || pat[p] == val[v]`. -/
def standsFor (q v : Rune) : Bool := q == question || q == v

def isStar (q : Rune) : Bool := q == star

/-- `*` stands for any run of runes, `?` for one rune, any other rune for itself. -/
def InLanguage : List Rune → List Rune → Prop := Glob.Matches standsFor isStar

/-- The same, except that a `*` standing at a `*` of the value is that rune. -/
def StarsLiteral : List Rune → List Rune → Prop := Glob.Reads standsFor isStar

/-! ## The loop -/

theorem matchLoop_eq (fuel : Nat) (pat val : List Rune) (back : Option (List Rune × List Rune)) :
    matchLoop fuel pat val back = Glob.loop standsFor isStar fuel pat val back := by
  induction fuel generalizing pat val back with
  | zero => rfl
  | succ fuel ih =>
    have hretry : Glob.retry (matchLoop fuel) back = Glob.retry (Glob.loop standsFor isStar fuel) back := by
      rcases back with _ | ⟨ps, _ | ⟨w, ws⟩⟩
      · rfl
      · rfl
      · exact ih ps ws _
    cases val with
    | nil => rfl
    | cons v vs =>
      cases pat with
      | nil =>
        rw [Glob.loop, ← hretry]
        rcases back with _ | ⟨_, _ | _⟩ <;> rfl
      | cons q ps =>
        rw [Glob.loop, ← hretry, ← ih, ← ih]
        simp only [standsFor, isStar, Bool.or_eq_true, beq_iff_eq]
        rcases back with _ | ⟨_, _ | _⟩ <;> rfl

theorem matchRunes_iff_starsLiteral (pat val : List Rune) :
    matchRunes pat val = true ↔ StarsLiteral pat val := by
  rw [matchRunes, matchLoop_eq]
  exact Glob.loop_start_iff pat val

/-! ## The language -/

theorem inLanguage_of_starsLiteral {pat val : List Rune} (h : StarsLiteral pat val) : InLanguage pat val :=
  Glob.matches_of_reads h

theorem starsLiteral_of_inLanguage {pat val : List Rune} (hval : star ∉ val) (h : InLanguage pat val) :
    StarsLiteral pat val := by
  refine Glob.reads_of_matches ?_ h
  intro q hq v hv
  obtain rfl : q = star := eq_of_beq hq
  have hne : star ≠ v := fun heq => hval (heq ▸ hv)
  rw [standsFor, beq_false_of_ne hne]
  rfl

theorem standsFor_self (v : Rune) : standsFor v v = true := by simp [standsFor]

theorem standsFor_question (v : Rune) : standsFor question v = true := rfl

theorem inLanguage_append {runs pat val : List Rune} (hruns : star ∉ runs) (h : InLanguage pat val) :
    InLanguage (runs ++ pat) (runs ++ val) := by
  induction runs with
  | nil => exact h
  | cons v runs ih =>
    rw [List.mem_cons, not_or] at hruns
    refine .one ?_ (standsFor_self v) (ih hruns.2)
    exact beq_false_of_ne fun heq => hruns.1 heq.symm

theorem starsLiteral_append_iff (runs pat val : List Rune) :
    StarsLiteral (runs ++ pat) (runs ++ val) ↔ StarsLiteral pat val := by
  induction runs with
  | nil => rfl
  | cons v runs ih => exact (Glob.reads_cons_iff_of_single (standsFor_self v)).trans ih

theorem inLanguage_questions (val : List Rune) : InLanguage (List.replicate val.length question) val := by
  induction val with
  | nil => exact .nil
  | cons v vs ih => exact .one rfl (standsFor_question v) ih

theorem length_of_starsLiteral_questions {n : Nat} {val : List Rune}
    (h : StarsLiteral (List.replicate n question) val) : val.length = n := by
  induction n generalizing val with
  | zero =>
    cases h
    rfl
  | succ n ih =>
    cases h with
    | one _ hrest => rw [List.length_cons, ih hrest]
    | run hgap _ _ _ => cases hgap

/-- For a value with `*` there is a pattern that fails it: `*` for nothing at all and `?` for
    the `*` and every rune after it. -/
theorem missed_of_star {val : List Rune} (hval : star ∈ val) :
    ∃ pat, InLanguage pat val ∧ ¬StarsLiteral pat val := by
  obtain ⟨front, rest, rfl, hfront⟩ := List.eq_append_cons_of_mem hval
  refine ⟨front ++ star :: List.replicate (star :: rest).length question, ?_, ?_⟩
  · refine inLanguage_append hfront ?_
    exact .run rfl List.suffix_rfl (inLanguage_questions (star :: rest))
  · intro h
    have hliteral := (starsLiteral_append_iff front _ _).mp h
    have hrest := (Glob.reads_cons_iff_of_single (standsFor_self star)).mp hliteral
    have hlength := length_of_starsLiteral_questions hrest
    rw [List.length_cons] at hlength
    omega

/-- A pattern decides by its language exactly where taking its stars literally at a `*` loses
    nothing.  For a value, all patterns do exactly when the value has no `*`. -/
theorem matchRunes_inLanguage_iff (pat val : List Rune) :
    ((matchRunes pat val = true ↔ InLanguage pat val) ↔ (InLanguage pat val → StarsLiteral pat val)) ∧
      ((∀ pat, matchRunes pat val = true ↔ InLanguage pat val) ↔ star ∉ val) := by
  have hexact (pat : List Rune) :
      (matchRunes pat val = true ↔ InLanguage pat val) ↔ (InLanguage pat val → StarsLiteral pat val) := by
    rw [matchRunes_iff_starsLiteral]
    exact ⟨Iff.mpr, fun h => ⟨inLanguage_of_starsLiteral, h⟩⟩
  refine ⟨hexact pat, ?_, ?_⟩
  · intro hall hval
    obtain ⟨missed, hin, hnot⟩ := missed_of_star hval
    exact hnot ((hexact missed).mp (hall missed) hin)
  · intro hval pat
    exact (hexact pat).mpr (starsLiteral_of_inLanguage hval)

/-- `photos/*` does not match the object `*1` of its bucket. -/
theorem starKey_unmatched :
    ¬(match_ (str "photos/*") (str "photos/*1") = true ↔
      InLanguage (runes (str "photos/*")) (runes (str "photos/*1"))) := by
  have hpattern : runes (str "photos/*") = runes (str "photos/") ++ [star] := by decide +kernel
  have hvalue : runes (str "photos/*1") = runes (str "photos/") ++ [star, 49] := by decide +kernel
  have hin : InLanguage (runes (str "photos/*")) (runes (str "photos/*1")) := by
    rw [hpattern, hvalue]
    refine inLanguage_append (by decide +kernel) ?_
    exact .run rfl (List.nil_suffix) .nil
  intro hiff
  exact absurd (hiff.mpr hin) (by decide +kernel)

end S3Gateway.Policy
