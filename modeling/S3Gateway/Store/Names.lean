import S3Gateway.Go.Runes
import S3Gateway.Library.Regular
import S3Gateway.Policy.Meaning
import S3Gateway.S3rp.Config

/-! # Names and principals

The store accepts tenant and user names by one pattern, and a policy accepts principals by another that
has to stay in sync with it.  Each is written here as the source writes it.  On every string they agree
with the tests that the rest of the development uses, and the two languages fit: a principal is a
tenant name, a slash and a user name or a lone `*`.

`regexp` matches a string by its runes.  All patterns here are of the form `^r$`, and without flags
`^` and `$` hold only at the two ends of the text, so `r` has to match the whole of it.  A pattern
that names ASCII only matches bytes. -/

namespace Go

open Regular

/-- `lo-hi` in a class of characters. -/
def runeRange (lo hi : Char) : List Rune := List.range' lo.toNat (hi.toNat + 1 - lo.toNat)

/-- `MatchString(s)` of the pattern `^r$`. -/
def matchWhole (r : RegularExpression Rune) (s : Bytes) : Bool := r.rmatch (runes s)

theorem ascii_of_toNat_lt {s : Bytes} (h : ∀ r ∈ s.map UInt8.toNat, r < 0x80) : ∀ b ∈ s, b < 0x80 := by
  intro b hb
  rw [UInt8.lt_iff_toNat_lt]
  exact h b.toNat (List.mem_map_of_mem hb)

theorem matchWhole_iff {r : RegularExpression Rune} (hr : ∀ a ∈ letters r, a < 0x80) (s : Bytes) :
    matchWhole r s = true ↔ r.rmatch (s.map UInt8.toNat) = true := by
  unfold matchWhole
  constructor
  · intro h
    have hascii : ∀ b ∈ s, b < 0x80 := ascii_of_runes fun a ha => hr a (mem_letters_of_rmatch h a ha)
    rwa [runes_ascii hascii] at h
  · intro h
    have hascii : ∀ b ∈ s, b < 0x80 := ascii_of_toNat_lt fun a ha => hr a (mem_letters_of_rmatch h a ha)
    rwa [runes_ascii hascii]

end Go

namespace S3Gateway

open Go Regular
open RegularExpression (char)

/-- `a-z0-9`, in a class. -/
def az09 : List Rune := runeRange 'a' 'z' ++ runeRange '0' '9'

/-! ## Package store -/

namespace Store

/-- `^[a-z0-9][a-z0-9-]{1,61}[a-z0-9]$`. -/
def bucketNameRegexp : RegularExpression Rune :=
  oneOf az09 *
    (between (oneOf (az09 ++ ['-'.toNat])) 1 61 *
      oneOf az09)

/-- `^[a-z0-9][a-z0-9_-]+$`. -/
def principalPartRegexp : RegularExpression Rune :=
  oneOf az09 *
    oneOrMore (oneOf (az09 ++ ['_'.toNat, '-'.toNat]))

inductive NameError where
  | bucketName (name : Bytes)
  | tenantName (name : Bytes)
  | userName (name : Bytes)
deriving DecidableEq

/-- The error for a name that is not of the pattern. -/
def validateName (pattern : RegularExpression Rune) (error : Bytes → NameError) (name : Bytes) :
    Option NameError :=
  if !matchWhole pattern name then some (error name) else none

def validateBucketName : Bytes → Option NameError := validateName bucketNameRegexp .bucketName

def validateTenantName : Bytes → Option NameError := validateName principalPartRegexp .tenantName

def validateUserName : Bytes → Option NameError := validateName principalPartRegexp .userName

theorem validateName_eq_none_iff (pattern : RegularExpression Rune) (error : Bytes → NameError)
    (name : Bytes) :
    validateName pattern error name = none ↔ matchWhole pattern name = true := by
  cases h : matchWhole pattern name <;> simp [validateName, h]

end Store

/-! ## Package policy -/

namespace Policy

/-- `principalRegexp`: `^[a-z0-9][a-z0-9_-]+/([a-z0-9][a-z0-9_-]+|\*)$`. -/
def principalPattern : RegularExpression Rune :=
  oneOf az09 *
      oneOrMore (oneOf (az09 ++ ['_'.toNat, '-'.toNat])) *
    (char '/'.toNat *
      (oneOf az09 *
          oneOrMore (oneOf (az09 ++ ['_'.toNat, '-'.toNat])) +
        char '*'.toNat))

end Policy

/-! ## What the patterns match -/

open Policy (isNameStart isNameByte isPrincipalPart principalPattern principalRegexp)
open RegularExpression (mul_rmatch_iff add_rmatch_iff char_rmatch_iff)

theorem mem_az09 (b : UInt8) : b.toNat ∈ az09 ↔ isNameStart b = true := by
  revert b
  apply forall_byte
  decide +kernel

theorem mem_nameClass (b : UInt8) : b.toNat ∈ az09 ++ ['_'.toNat, '-'.toNat] ↔ isNameByte b = true := by
  revert b
  apply forall_byte
  decide +kernel

theorem mem_bucketClass (b : UInt8) :
    b.toNat ∈ az09 ++ ['-'.toNat] ↔ (isNameStart b || b == ch '-') = true := by
  revert b
  apply forall_byte
  decide +kernel

theorem forall_mem_map_toNat {cs : List Rune} {f : UInt8 → Bool} (h : ∀ b : UInt8, b.toNat ∈ cs ↔ f b = true)
    (s : Bytes) : (∀ a ∈ s.map UInt8.toNat, a ∈ cs) ↔ s.all f = true := by
  rw [List.forall_mem_map, List.all_eq_true]
  exact forall_congr' fun b => imp_congr_right fun _ => h b

theorem map_toNat_eq_singleton {s : Bytes} {b : UInt8} : s.map UInt8.toNat = [b.toNat] ↔ s = [b] := by
  rw [← List.map_singleton, List.map_inj_right fun _ _ => UInt8.toNat_inj.mp]

theorem oneOf_mul_rmatch_cons {cs : List Rune} {r : RegularExpression Rune} (b : UInt8) (rest : Bytes) :
    (oneOf cs * r).rmatch ((b :: rest).map UInt8.toNat) = true ↔
      b.toNat ∈ cs ∧ r.rmatch (rest.map UInt8.toNat) = true := by
  rw [oneOf_mul_rmatch_iff, List.map_cons]
  constructor
  · rintro ⟨a, rest', heq, ha, hrest⟩
    cases heq
    exact ⟨ha, hrest⟩
  · rintro ⟨hb, hrest⟩
    exact ⟨_, _, rfl, hb, hrest⟩

theorem not_oneOf_mul_rmatch_nil {cs : List Rune} {r : RegularExpression Rune} :
    ¬(oneOf cs * r).rmatch [] = true := by
  rw [oneOf_mul_rmatch_iff]
  rintro ⟨a, rest, heq, -⟩
  cases heq

theorem part_rmatch_iff (s : Bytes) :
    (oneOf az09 * oneOrMore (oneOf (az09 ++ ['_'.toNat, '-'.toNat]))).rmatch (s.map UInt8.toNat) = true ↔
      isPrincipalPart s = true := by
  cases s with
  | nil => exact iff_of_false not_oneOf_mul_rmatch_nil (by simp [isPrincipalPart])
  | cons b rest =>
    rw [oneOf_mul_rmatch_cons, mem_az09, oneOrMore_oneOf_rmatch_iff, forall_mem_map_toNat mem_nameClass]
    simp [isPrincipalPart, and_assoc]

theorem principalPattern_rmatch_iff (e : Bytes) :
    principalPattern.rmatch (e.map UInt8.toNat) = true ↔
      ∃ tenant user, e = tenant ++ ch '/' :: user ∧ isPrincipalPart tenant = true ∧
        (isPrincipalPart user = true ∨ user = [ch '*']) := by
  have hslash : '/'.toNat = (ch '/').toNat := rfl
  have hstar : '*'.toNat = (ch '*').toNat := rfl
  rw [principalPattern, mul_rmatch_iff]
  constructor
  · rintro ⟨t, r, heq, ht, hr⟩
    obtain ⟨s, u, rfl, hs, hu⟩ := (mul_rmatch_iff _ _ _).mp hr
    rw [char_rmatch_iff] at hs
    -- the pieces of the runes are those of pieces of the string
    obtain ⟨tenant, front, rfl, rfl, hfront⟩ := List.map_eq_append_iff.mp heq
    obtain ⟨sep, user, rfl, rfl, rfl⟩ := List.map_eq_append_iff.mp hfront
    rw [hslash, map_toNat_eq_singleton] at hs
    rw [add_rmatch_iff, part_rmatch_iff, char_rmatch_iff, hstar, map_toNat_eq_singleton] at hu
    exact ⟨tenant, user, by rw [hs]; rfl, (part_rmatch_iff tenant).mp ht, hu⟩
  · rintro ⟨tenant, user, rfl, htenant, huser⟩
    refine ⟨tenant.map UInt8.toNat, (ch '/' :: user).map UInt8.toNat, List.map_append,
      (part_rmatch_iff tenant).mpr htenant, (mul_rmatch_iff _ _ _).mpr ?_⟩
    refine ⟨[(ch '/').toNat], user.map UInt8.toNat, rfl, (char_rmatch_iff _ _).mpr rfl, ?_⟩
    rwa [add_rmatch_iff, part_rmatch_iff, char_rmatch_iff, hstar, map_toNat_eq_singleton]

theorem oneOf_rmatch_singleton {cs : List Rune} (b : UInt8) :
    (oneOf cs).rmatch [b.toNat] = true ↔ b.toNat ∈ cs := by
  simp [oneOf_rmatch_iff, -RegularExpression.rmatch_iff_matches']

/-- The test of a bucket name, by its first and last byte and those between. -/
theorem isBucketName_iff {name : Bytes} : S3rp.isBucketName name = true ↔
    ∃ first middle last, name = first :: (middle ++ [last]) ∧ isNameStart first = true ∧
      (1 ≤ middle.length ∧ middle.length ≤ 61 ∧ middle.all (fun b => isNameStart b || b == ch '-') = true) ∧
      isNameStart last = true := by
  constructor
  · intro h
    simp only [S3rp.isBucketName, Bool.and_eq_true, decide_eq_true_eq] at h
    obtain ⟨⟨⟨⟨hmin, hmax⟩, hall⟩, hfirst⟩, hlast⟩ := h
    cases name with
    | nil => cases hmin
    | cons first rest =>
      rcases List.eq_nil_or_concat rest with rfl | ⟨middle, last, rfl⟩
      · exact absurd hmin (by simp)
      · rw [List.concat_eq_append] at hmin hmax hall hfirst hlast ⊢
        rw [← List.cons_append, List.getLast?_concat] at hlast
        simp only [List.length_cons, List.length_append, List.length_nil] at hmin hmax
        simp only [List.all_cons, List.all_append, Bool.and_eq_true] at hall
        exact ⟨first, middle, last, rfl, hfirst, ⟨by omega, by omega, hall.2.1⟩, hlast⟩
  · rintro ⟨first, middle, last, rfl, hfirst, ⟨hmin, hmax, hall⟩, hlast⟩
    have hends : (first :: (middle ++ [last])).getLast? = some last := by
      rw [← List.cons_append, List.getLast?_concat]
    simp only [S3rp.isBucketName, Bool.and_eq_true, decide_eq_true_eq, List.length_cons, List.length_append,
      List.length_nil, List.all_cons, List.all_append, List.all_nil, hall, hends, List.head?_cons,
      Option.all_some, hfirst, hlast, Bool.true_or, Bool.true_and, and_true]
    omega

theorem bucketName_rmatch_iff (s : Bytes) :
    Store.bucketNameRegexp.rmatch (s.map UInt8.toNat) = true ↔ S3rp.isBucketName s = true := by
  rw [isBucketName_iff, Store.bucketNameRegexp]
  cases s with
  | nil => exact iff_of_false not_oneOf_mul_rmatch_nil (by simp)
  | cons b rest =>
    rw [oneOf_mul_rmatch_cons, mem_az09, mul_rmatch_iff]
    constructor
    · rintro ⟨hb, m, l, heq, hm, hl⟩
      obtain ⟨middle, tail, rfl, rfl, rfl⟩ := List.map_eq_append_iff.mp heq
      rw [between_oneOf_rmatch_iff, List.length_map, forall_mem_map_toNat mem_bucketClass] at hm
      obtain ⟨a, ha, htail⟩ := oneOf_rmatch_iff.mp hl
      obtain ⟨last, rfl, rfl⟩ := List.map_eq_singleton_iff.mp htail
      exact ⟨b, middle, last, rfl, hb, hm, (mem_az09 last).mp ha⟩
    · rintro ⟨first, middle, last, heq, hfirst, hmiddle, hlast⟩
      cases heq
      refine ⟨hfirst, middle.map UInt8.toNat, [last.toNat], List.map_append, ?_, ?_⟩
      · rwa [between_oneOf_rmatch_iff, List.length_map, forall_mem_map_toNat mem_bucketClass]
      · rwa [oneOf_rmatch_singleton, mem_az09]

/-! ## The tests of the development -/

theorem validateName_iff {pattern : RegularExpression Rune} {test : Bytes → Bool}
    (hascii : ∀ a ∈ letters pattern, a < 0x80)
    (h : ∀ s : Bytes, pattern.rmatch (s.map UInt8.toNat) = true ↔ test s = true)
    (error : Bytes → Store.NameError) (name : Bytes) :
    Store.validateName pattern error name = none ↔ test name = true := by
  rw [Store.validateName_eq_none_iff, matchWhole_iff hascii, h]

namespace Store

theorem bucketNameRegexp_ascii : ∀ a ∈ letters bucketNameRegexp, a < 0x80 := by
  intro a ha
  have hends : ∀ a ∈ letters (oneOf az09), a < 0x80 := by decide +kernel
  have hmiddle : ∀ a ∈ letters (oneOf (az09 ++ ['-'.toNat])), a < 0x80 := by decide +kernel
  rw [bucketNameRegexp, letters_mul, letters_mul, List.mem_append, List.mem_append] at ha
  rcases ha with ha | ha | ha
  · exact hends a ha
  · exact hmiddle a (mem_letters_of_between ha)
  · exact hends a ha

theorem validateBucketName_iff (name : Bytes) :
    validateBucketName name = none ↔ S3rp.isBucketName name = true :=
  validateName_iff bucketNameRegexp_ascii bucketName_rmatch_iff .bucketName name

theorem validateTenantName_iff (name : Bytes) :
    validateTenantName name = none ↔ isPrincipalPart name = true :=
  validateName_iff (by decide +kernel) part_rmatch_iff .tenantName name

theorem validateUserName_iff (name : Bytes) :
    validateUserName name = none ↔ isPrincipalPart name = true :=
  validateName_iff (by decide +kernel) part_rmatch_iff .userName name

end Store

namespace Policy

theorem principalRegexp_iff (e : Bytes) :
    principalRegexp e = true ↔ ∃ tenant user, e = tenant ++ ch '/' :: user ∧ isPrincipalPart tenant = true ∧
      (isPrincipalPart user = true ∨ user = [ch '*']) := by
  constructor
  · intro h
    obtain ⟨tenant, user, htenant, rfl, huser⟩ := principalRegexp_cases h
    exact ⟨tenant, user, rfl, htenant, huser⟩
  · rintro ⟨tenant, user, rfl, htenant, huser⟩
    simp [principalRegexp, cut_append (slash_not_mem_of_isPrincipalPart htenant), htenant, huser]

theorem principalRegexp_eq (e : Bytes) : principalRegexp e = matchWhole principalPattern e := by
  rw [Bool.eq_iff_iff, principalRegexp_iff, matchWhole_iff (by decide +kernel), principalPattern_rmatch_iff]

/-! ## Two grammars in sync -/

open Store (validateTenantName validateUserName validateTenantName_iff validateUserName_iff)

def ValidNames (tenant user : Bytes) : Prop := validateTenantName tenant = none ∧ validateUserName user = none

/-- The entry is `tenant/user`, and of all users it matches this one. -/
structure NamesUser (e tenant user : Bytes) : Prop where
  valid : ValidNames tenant user
  written : e = tenant ++ str "/" ++ user
  matched : ∀ t u, ValidNames t u → (matchAnyPrincipal [e] (t ++ str "/" ++ u) = true ↔ t = tenant ∧ u = user)

/-- The entry is `tenant/*`, and of all users it matches those of this tenant. -/
structure NamesTenant (e tenant : Bytes) : Prop where
  valid : validateTenantName tenant = none
  written : e = tenant ++ str "/" ++ str "*"
  matched : ∀ t u, ValidNames t u → (matchAnyPrincipal [e] (t ++ str "/" ++ u) = true ↔ t = tenant)

theorem validNames_iff {tenant user : Bytes} :
    ValidNames tenant user ↔ isPrincipalPart tenant = true ∧ isPrincipalPart user = true :=
  and_congr (validateTenantName_iff tenant) (validateUserName_iff user)

theorem slash_not_mem_of_user {user : Bytes} (h : isPrincipalPart user = true ∨ user = [ch '*']) :
    ch '/' ∉ user := by
  rcases h with h | rfl
  · exact slash_not_mem_of_isPrincipalPart h
  · decide

theorem count_slash {tenant user : Bytes} (htenant : ch '/' ∉ tenant) (huser : ch '/' ∉ user) :
    (tenant ++ ch '/' :: user).count (ch '/') = 1 := by
  rw [List.count_append, List.count_cons_self, List.count_eq_zero.mpr htenant, List.count_eq_zero.mpr huser]

theorem principalRegexp_append (tenant user : Bytes) :
    principalRegexp (tenant ++ ch '/' :: user) = true ↔
      isPrincipalPart tenant = true ∧ (isPrincipalPart user = true ∨ user = [ch '*']) := by
  constructor
  · intro h
    obtain ⟨t, u, heq, ht, hu⟩ := (principalRegexp_iff _).mp h
    have hslash := slash_not_mem_of_isPrincipalPart ht
    have hcount := count_slash hslash (slash_not_mem_of_user hu)
    -- a slash in `tenant` would be a second one
    rw [← heq, List.count_append, List.count_cons_self] at hcount
    have htenant : ch '/' ∉ tenant := List.count_eq_zero.mp (by omega)
    obtain ⟨rfl, rfl⟩ := (append_slash_inj htenant hslash).mp heq
    exact ⟨ht, hu⟩
  · intro h
    exact (principalRegexp_iff _).mpr ⟨tenant, user, rfl, h⟩

theorem validatePrincipal_singleton {ε : Type} (all : Bool) (e : Bytes) (name : StatementName) :
    validatePrincipal (ε := ε) (some ⟨all, [e]⟩) name = none ↔ principalRegexp e = true := by
  simp [validatePrincipal, maxPrincipalUsers]

theorem readEntry_append {tenant : Bytes} (h : ch '/' ∉ tenant) (user : Bytes) :
    readEntry (tenant ++ ch '/' :: user) =
      if user = [ch '*'] then .wholeTenant tenant else .user tenant user := by
  rw [readEntry, cut_append h]

theorem matchAnyPrincipal_singleton {e t u : Bytes} (he : principalRegexp e = true) (h : ValidNames t u) :
    matchAnyPrincipal [e] (t ++ str "/" ++ u) = true ↔
      (readEntry e).Names ⟨t, u, (validNames_iff.mp h).1, (validNames_iff.mp h).2⟩ := by
  have hentries : ∀ x ∈ [e], principalRegexp x = true := by simpa using he
  have hmatch := matchAnyPrincipal_iff hentries ⟨t, u, (validNames_iff.mp h).1, (validNames_iff.mp h).2⟩
  simpa [User.principal] using hmatch

theorem star_not_part : isPrincipalPart [ch '*'] = false := by decide

theorem namesUser_of_valid {tenant user : Bytes} (h : ValidNames tenant user) :
    NamesUser (tenant ++ str "/" ++ user) tenant user where
  valid := h
  written := rfl
  matched := by
    obtain ⟨htenant, huser⟩ := validNames_iff.mp h
    have hnot : user ≠ [ch '*'] := by
      rintro rfl
      rw [star_not_part] at huser
      cases huser
    rw [append_slash]
    intro t u hnames
    rw [matchAnyPrincipal_singleton ((principalRegexp_append _ _).mpr ⟨htenant, .inl huser⟩) hnames,
      readEntry_append (slash_not_mem_of_isPrincipalPart htenant), if_neg hnot]
    rfl

theorem namesTenant_of_valid {tenant : Bytes} (h : validateTenantName tenant = none) :
    NamesTenant (tenant ++ str "/" ++ str "*") tenant where
  valid := h
  written := rfl
  matched := by
    have htenant := (validateTenantName_iff tenant).mp h
    have hstar : str "*" = [ch '*'] := rfl
    rw [append_slash, hstar]
    intro t u hnames
    rw [matchAnyPrincipal_singleton ((principalRegexp_append _ _).mpr ⟨htenant, .inr rfl⟩) hnames,
      readEntry_append (slash_not_mem_of_isPrincipalPart htenant), if_pos rfl]
    rfl

theorem append_slash_injective {t u t' u' : Bytes} (ht : validateTenantName t = none)
    (ht' : validateTenantName t' = none) (h : t ++ str "/" ++ u = t' ++ str "/" ++ u') : t = t' ∧ u = u' := by
  rw [append_slash, append_slash] at h
  have hslash := slash_not_mem_of_isPrincipalPart ((validateTenantName_iff t).mp ht)
  have hslash' := slash_not_mem_of_isPrincipalPart ((validateTenantName_iff t').mp ht')
  exact (append_slash_inj hslash hslash').mp h

theorem not_namesUser_and_namesTenant {e t u t' : Bytes} (huser : NamesUser e t u)
    (htenant : NamesTenant e t') : False := by
  have heq := huser.written.symm.trans htenant.written
  obtain ⟨-, rfl⟩ := append_slash_injective huser.valid.1 htenant.valid heq
  have hpart := (validateUserName_iff _).mp huser.valid.2
  cases hpart

/-- The pattern of the store and the one that validation decides stay in sync: validation accepts
    `t/u` without a star exactly for names the store accepts; an entry it accepts splits at its only
    slash into a tenant name and a user name or `*`; so no two users share a principal, and an entry
    names one user or one tenant, and not both. -/
theorem grammars_in_sync {ε : Type} (name : StatementName) :
    (∀ e, principalRegexp e = matchWhole principalPattern e) ∧
      (∀ t u : Bytes, ValidNames t u ↔
        ch '*' ∉ u ∧ validatePrincipal (ε := ε) (some ⟨false, [t ++ str "/" ++ u]⟩) name = none) ∧
      (∀ pr : Principal, validatePrincipal (ε := ε) (some pr) name = none → ∀ e ∈ pr.users,
        e.count (ch '/') = 1 ∧ ∃ t u, e = t ++ str "/" ++ u ∧ validateTenantName t = none ∧
          (validateUserName u = none ∨ u = str "*")) ∧
      (∀ t u t' u' : Bytes, ValidNames t u → ValidNames t' u' →
        t ++ str "/" ++ u = t' ++ str "/" ++ u' → t = t' ∧ u = u') ∧
      ∀ pr : Principal, validatePrincipal (ε := ε) (some pr) name = none → ∀ e ∈ pr.users,
        Xor (∃! names : Bytes × Bytes, NamesUser e names.1 names.2) (∃! t, NamesTenant e t) := by
  refine ⟨principalRegexp_eq, ?_, ?_, ?_, ?_⟩
  · intro t u
    rw [validatePrincipal_singleton, append_slash, principalRegexp_append, validNames_iff]
    constructor
    · rintro ⟨ht, hu⟩
      exact ⟨not_mem_of_isPrincipalPart hu (by decide), ht, .inl hu⟩
    · rintro ⟨hstar, ht, hu⟩
      refine ⟨ht, hu.resolve_right ?_⟩
      rintro rfl
      exact hstar (List.mem_singleton_self _)
  · intro pr hpr e he
    obtain ⟨t, u, ht, rfl, hu⟩ := principalRegexp_cases (Principal.valid_of_validatePrincipal hpr pr rfl e he)
    refine ⟨count_slash (slash_not_mem_of_isPrincipalPart ht) (slash_not_mem_of_user hu), t, u, ?_⟩
    exact ⟨(append_slash t u).symm, (validateTenantName_iff t).mpr ht,
      hu.imp_left (validateUserName_iff u).mpr⟩
  · intro t u t' u' h h' heq
    exact append_slash_injective h.1 h'.1 heq
  · intro pr hpr e he
    obtain ⟨t, u, ht, rfl, hu⟩ := principalRegexp_cases (Principal.valid_of_validatePrincipal hpr pr rfl e he)
    rw [← append_slash]
    -- what is after the slash says which of the two it names
    rcases hu with hu | rfl
    · have hnames := namesUser_of_valid (validNames_iff.mpr ⟨ht, hu⟩)
      refine .inl ⟨⟨(t, u), hnames, ?_⟩, ?_⟩
      · rintro ⟨t', u'⟩ hother
        have heq := append_slash_injective hother.valid.1 hnames.valid.1 hother.written.symm
        exact Prod.ext heq.1 heq.2
      · rintro ⟨t', htenant, -⟩
        exact not_namesUser_and_namesTenant hnames htenant
    · have hnames := namesTenant_of_valid ((validateTenantName_iff t).mpr ht)
      refine .inr ⟨⟨t, hnames, ?_⟩, ?_⟩
      · intro t' hother
        exact (append_slash_injective hother.valid hnames.valid hother.written.symm).1
      · rintro ⟨names, huser, -⟩
        exact not_namesUser_and_namesTenant huser hnames

theorem alice_named_once :
    ValidNames (str "acme") (str "alice") ∧
      Xor (∃! names : Bytes × Bytes, NamesUser (str "acme/alice") names.1 names.2)
        (∃! t, NamesTenant (str "acme/alice") t) := by
  have haccepted : validatePrincipal (ε := Unit) (some ⟨false, [str "acme/alice"]⟩) (.index 0) = none := by
    decide
  obtain ⟨-, hvalid, -, -, hnames⟩ := grammars_in_sync (ε := Unit) (.index 0)
  constructor
  · exact (hvalid _ _).mpr ⟨by decide, haccepted⟩
  · exact hnames _ haccepted _ (List.mem_singleton_self _)

end Policy

end S3Gateway
