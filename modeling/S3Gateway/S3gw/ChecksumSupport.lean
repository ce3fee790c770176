import S3Gateway.Library.Accumulate
import S3Gateway.S3gw.Trailers
import S3Gateway.S3gw.Respond

/-! # Setting the checksum policy

`SetChecksumSupport` checks a map from names of algorithms to supports and turns it into two
maps, by name and by value header, which requests and responses are checked against.  Here
the two maps are shown to be one `ChecksumPolicy`, whatever maps were set before and in
whatever order the loops over them went: an entry that is accepted is spelled as the table
spells it, so the entries of an accepted map never meet in either of the two. -/

namespace S3Gateway.S3gw

open Go

/-! ## Names -/

theorem lowerByte_toNat (b : UInt8) : asciiLower b.toNat = (lowerByte b).toNat := by
  revert b
  exact forall_byte (by decide +kernel)

namespace Algorithm

theorem mem_all (a : Algorithm) : a ∈ all := by cases a <;> decide

theorem name_facts : ∀ a ∈ all, a.name ≠ [] ∧ a.name.all (· < 0x80) = true ∧
    ∀ b ∈ all, a.name.map lowerByte = b.name.map lowerByte → a = b := by
  decide +kernel

theorem name_ne_nil (a : Algorithm) : a.name ≠ [] := (name_facts a a.mem_all).1

theorem name_ascii (a : Algorithm) : ∀ b ∈ a.name, b < 0x80 :=
  forall_mem_of_all (name_facts a a.mem_all).2.1

theorem lowerName_inj {a b : Algorithm} (h : a.name.map lowerByte = b.name.map lowerByte) : a = b :=
  (name_facts a a.mem_all).2.2 b b.mem_all h

variable [Unicode]

theorem equalFold_name (a b : Algorithm) : equalFold a.name b.name = true ↔ a = b := by
  have hrunes (a : Algorithm) : (runes a.name).map Unicode.fold = (a.name.map lowerByte).map UInt8.toNat := by
    rw [runes_ascii a.name_ascii, List.map_map, List.map_map]
    refine List.map_congr_left fun c hc => ?_
    have hfold : Unicode.fold c.toNat = asciiLower c.toNat := Unicode.fold_ascii _ (a.name_ascii c hc)
    rw [Function.comp_apply, Function.comp_apply, hfold, lowerByte_toNat]
  rw [equalFold, beq_iff_eq, hrunes, hrunes]
  constructor
  · intro h
    exact lowerName_inj (List.map_injective_iff.mpr (fun _ _ => UInt8.toNat.inj) h)
  · rintro rfl
    rfl

theorem header_inj {a b : Algorithm} (h : a.header = b.header) : a = b := by
  unfold header at h
  rw [toLower_ascii a.name_ascii, toLower_ascii b.name_ascii] at h
  exact lowerName_inj (List.append_cancel_left h)

end Algorithm

theorem lookupAlgorithm_name [Unicode] (a : Algorithm) : lookupAlgorithm a.name = some a := by
  have hsome : (lookupAlgorithm a.name).isSome = true := by
    rw [lookupAlgorithm, List.find?_isSome]
    exact ⟨a, a.mem_all, (a.equalFold_name a).mpr rfl⟩
  obtain ⟨b, hb⟩ := Option.isSome_iff_exists.mp hsome
  have hfold := List.find?_some (p := fun b : Algorithm => equalFold b.name a.name) hb
  rw [hb, (b.equalFold_name a).mp hfold]

/-! ## The source's policy -/

/-- The values of `ChecksumSupport`. -/
def ChecksumSupport.code : ChecksumSupport → Int
  | refused => 0
  | forwarded => 1
  | verified => 2

def ChecksumSupport.ofCode (s : Int) : ChecksumSupport :=
  if s = 1 then forwarded else if s = 2 then verified else refused

/-- A `map[string]ChecksumSupport`, in the order in which a loop goes over it. -/
structure SupportMap where
  entries : List (Bytes × Int)
  distinct : (entries.map Prod.fst).Nodup

/-- The errors of `newChecksumPolicy`. -/
inductive SupportError where
  /-- `%q is not an S3 checksum algorithm` -/
  | notAlgorithm (name : Bytes)
  /-- `write %q as %q` -/
  | misspelled (name want : Bytes)
  /-- `invalid support %d for %s` -/
  | invalidSupport (s : Int) (name : Bytes)
  /-- `%s cannot be verified by the gateway; offer it as forwarded` -/
  | cannotVerify (name : Bytes)
deriving DecidableEq

/-- `checksumPolicy`. -/
structure PolicyMaps where
  byName : AList fun _ : Bytes => Int
  byHeader : AList fun _ : Bytes => Int

section Source

variable [Unicode]

/-- One turn of the loop of `newChecksumPolicy`. -/
def addSupport (q : PolicyMaps) (entry : Bytes × Int) : Except SupportError PolicyMaps :=
  match lookupAlgorithm entry.1 with
  | none => .error (.notAlgorithm entry.1)
  | some a =>
    if entry.1 ≠ a.name then .error (.misspelled entry.1 a.name)
    else if entry.2 < 0 ∨ 2 < entry.2 then .error (.invalidSupport entry.2 a.name)
    else if entry.2 = 2 ∧ !a.computable then .error (.cannotVerify a.name)
    else .ok
      { byName := q.byName.insert a.name entry.2, byHeader := q.byHeader.insert a.header entry.2 }

def newChecksumPolicy (m : SupportMap) : Except SupportError PolicyMaps :=
  m.entries.foldlM addSupport ⟨∅, ∅⟩

namespace PolicyMaps

variable (q : PolicyMaps)

/-- `p.support(name)`; the name of no algorithm is the empty one. -/
def support (name : Bytes) : Int :=
  (q.byName.lookup ((lookupAlgorithm name).elim [] (·.name))).getD 0

def knownHeader (lname : Bytes) : Bool := (q.byHeader.lookup lname).getD 0 ≠ 0

def offered (v : ChecksumValues) : ChecksumValues :=
  v.filter fun (a, _) => (q.byName.lookup a.name).getD 0 ≠ 0

end PolicyMaps

/-- `g.SetChecksumSupport(m)`: the policy in force afterwards, and the error. -/
def setChecksumSupport (current : PolicyMaps) (m : SupportMap) : PolicyMaps × Option SupportError :=
  match newChecksumPolicy m with
  | .error e => (current, some e)
  | .ok q => (q, none)

def defaultChecksumSupport : SupportMap where
  entries := [(str "CRC32", 2), (str "CRC32C", 2), (str "CRC64NVME", 2), (str "SHA1", 2), (str "SHA256", 2)]
  distinct := by decide +kernel

end Source

/-! ## What a map asks for -/

namespace SupportMap

/-- An entry that is accepted: an algorithm under its own name, with a support there is and
    that it can have. -/
def Accepts (entry : Bytes × Int) : Prop :=
  ∃ a : Algorithm, entry.1 = a.name ∧ 0 ≤ entry.2 ∧ entry.2 ≤ 2 ∧ (entry.2 = 2 → a.computable = true)

instance (entry : Bytes × Int) : Decidable (Accepts entry) :=
  decidable_of_iff (∃ a ∈ Algorithm.all,
      entry.1 = a.name ∧ 0 ≤ entry.2 ∧ entry.2 ≤ 2 ∧ (entry.2 = 2 → a.computable = true))
    ⟨fun ⟨a, _, h⟩ => ⟨a, h⟩, fun ⟨a, h⟩ => ⟨a, a.mem_all, h⟩⟩

def Accepted (m : SupportMap) : Prop := ∀ entry ∈ m.entries, Accepts entry

instance (m : SupportMap) : Decidable m.Accepted := inferInstanceAs (Decidable (∀ entry ∈ m.entries, Accepts entry))

def value (m : SupportMap) (name : Bytes) : Int := (m.entries.lookup name).getD 0

theorem lookup_eq_some (m : SupportMap) {name : Bytes} {s : Int} :
    m.entries.lookup name = some s ↔ (name, s) ∈ m.entries := by
  obtain ⟨entries, hdistinct⟩ := m
  show entries.lookup name = some s ↔ (name, s) ∈ entries
  induction entries with
  | nil => simp
  | cons entry rest ih =>
    rw [List.map_cons, List.nodup_cons] at hdistinct
    obtain ⟨k, v⟩ := entry
    by_cases hk : name = k
    · subst hk
      have hnot : ∀ s, (name, s) ∉ rest := fun s hs => hdistinct.1 (List.mem_map.mpr ⟨_, hs, rfl⟩)
      simp [hnot, eq_comm]
    · rw [List.lookup_cons, beq_eq_false_iff_ne.mpr hk]
      simp only [ih hdistinct.2, List.mem_cons, Prod.mk.injEq, hk, false_and, false_or]

theorem value_perm {m m' : SupportMap} (h : m.entries.Perm m'.entries) (name : Bytes) : m.value name = m'.value name := by
  unfold value
  congr 1
  apply Option.ext
  intro s
  rw [lookup_eq_some, lookup_eq_some]
  exact h.mem_iff

theorem accepted_perm {m m' : SupportMap} (h : m.entries.Perm m'.entries) : m.Accepted ↔ m'.Accepted := by
  unfold Accepted
  exact forall_congr' fun entry => by rw [h.mem_iff]

end SupportMap

/-! ## The two maps are one policy -/

section Refinement

variable [Unicode]

structure PolicyMaps.Refines (q : PolicyMaps) (p : ChecksumPolicy) : Prop where
  support : ∀ name, q.support name = (p.supportOf name).code
  knownHeader : ∀ lname, q.knownHeader lname = p.knownHeader lname
  offered : ∀ v, q.offered v = p.offered v

def headerOf (name : Bytes) : Bytes := headerPrefix ++ toLower name

theorem addSupport_of_accepts {entry : Bytes × Int} (h : SupportMap.Accepts entry) (q : PolicyMaps) :
    addSupport q entry = .ok
      { byName := q.byName.insert entry.1 entry.2, byHeader := q.byHeader.insert (headerOf entry.1) entry.2 } := by
  obtain ⟨a, hname, hlo, hhi, hverified⟩ := h
  unfold addSupport
  rw [hname, lookupAlgorithm_name]
  have hrange : ¬(entry.2 < 0 ∨ 2 < entry.2) := by omega
  have hcan : ¬(entry.2 = 2 ∧ (!a.computable) = true) := by
    rintro ⟨htwo, hnot⟩
    rw [hverified htwo] at hnot
    cases hnot
  simp only [ne_eq, not_true_eq_false, if_false, if_neg hrange, if_neg hcan]
  rfl

theorem accepts_of_addSupport {q q' : PolicyMaps} {entry : Bytes × Int} (h : addSupport q entry = .ok q') :
    SupportMap.Accepts entry := by
  unfold addSupport at h
  split at h
  · cases h
  · rename_i a _
    split at h
    · cases h
    · rename_i hname
      split at h
      · cases h
      · rename_i hrange
        split at h
        · cases h
        · rename_i hcan
          refine ⟨a, not_not.mp hname, by omega, by omega, fun htwo => ?_⟩
          cases hcomputable : a.computable with
          | true => rfl
          | false => exact absurd ⟨htwo, by rw [hcomputable]; rfl⟩ hcan

def SupportMap.maps (m : SupportMap) : PolicyMaps where
  byName := Accumulate.fill ∅ m.entries
  byHeader := Accumulate.fill ∅ (m.entries.map fun e => (headerOf e.1, e.2))

theorem newChecksumPolicy_of_accepted {m : SupportMap} (h : m.Accepted) : newChecksumPolicy m = .ok m.maps := by
  have hloop := Accumulate.foldlM_eq_foldl (fun e he q => addSupport_of_accepts (h e he) q) ⟨∅, ∅⟩
  unfold newChecksumPolicy
  rw [hloop]
  congr 1
  -- each of the maps is filled on its own
  have hsplit : ∀ (es : List (Bytes × Int)) (q : PolicyMaps),
      es.foldl (fun q e => { byName := q.byName.insert e.1 e.2, byHeader := q.byHeader.insert (headerOf e.1) e.2 }) q =
        { byName := Accumulate.fill q.byName es
          byHeader := Accumulate.fill q.byHeader (es.map fun e => (headerOf e.1, e.2)) } := by
    intro es
    induction es with
    | nil => exact fun q => rfl
    | cons e es ih => exact fun q => ih _
  exact hsplit m.entries ⟨∅, ∅⟩

theorem accepted_of_newChecksumPolicy {m : SupportMap} {q : PolicyMaps} (h : newChecksumPolicy m = .ok q) : m.Accepted :=
  Accumulate.foldlM_mem (fun _ _ _ hstep => accepts_of_addSupport hstep) h

namespace SupportMap

variable {m : SupportMap}

theorem byName_lookup (m : SupportMap) (name : Bytes) : (m.maps.byName.lookup name).getD 0 = m.value name := by
  unfold value
  congr 1
  apply Option.ext
  intro s
  rw [maps, Accumulate.lookup_fill_iff m.distinct, lookup_eq_some]

theorem headers_nodup (h : m.Accepted) : ((m.entries.map fun e => (headerOf e.1, e.2)).map Prod.fst).Nodup := by
  rw [List.map_map]
  refine List.Nodup.map_on ?_ (List.Nodup.of_map _ m.distinct)
  intro e he e' he' heq
  obtain ⟨a, ha, -⟩ := h e he
  obtain ⟨b, hb, -⟩ := h e' he'
  have hheaders : a.header = b.header := by
    show headerOf a.name = headerOf b.name
    rw [← ha, ← hb]
    exact heq
  have hnames : e.1 = e'.1 := by rw [ha, hb, Algorithm.header_inj hheaders]
  exact List.inj_on_of_nodup_map m.distinct he he' hnames

theorem byHeader_lookup (h : m.Accepted) {lname : Bytes} {s : Int} :
    m.maps.byHeader.lookup lname = some s ↔ ∃ a : Algorithm, a.header = lname ∧ (a.name, s) ∈ m.entries := by
  rw [maps, Accumulate.lookup_fill_iff (headers_nodup h), List.mem_map]
  constructor
  · rintro ⟨e, he, heq⟩
    obtain ⟨a, ha, -⟩ := h e he
    cases heq
    exact ⟨a, by rw [ha]; rfl, by rw [← ha]; exact he⟩
  · rintro ⟨a, rfl, he⟩
    exact ⟨_, he, rfl⟩

def policy (m : SupportMap) (h : m.Accepted) : ChecksumPolicy where
  support a := .ofCode (m.value a.name)
  verified_computable a ha := by
    have htwo : m.value a.name = 2 := by
      unfold ChecksumSupport.ofCode at ha
      split at ha
      · cases ha
      · split at ha
        · assumption
        · cases ha
    cases hlookup : m.entries.lookup a.name with
    | none => simp [value, hlookup] at htwo
    | some s =>
      obtain ⟨b, hname, -, -, hcomputable⟩ := h _ (m.lookup_eq_some.mp hlookup)
      have hs : s = 2 := by simpa [value, hlookup] using htwo
      rw [(a.equalFold_name b).mp (hname ▸ (a.equalFold_name a).mpr rfl)]
      exact hcomputable hs

omit [Unicode] in
theorem value_range (h : m.Accepted) (name : Bytes) : 0 ≤ m.value name ∧ m.value name ≤ 2 := by
  unfold value
  cases hlookup : m.entries.lookup name with
  | none => decide
  | some s =>
    obtain ⟨-, -, hlo, hhi, -⟩ := h _ (m.lookup_eq_some.mp hlookup)
    exact ⟨hlo, hhi⟩

theorem code_policy (h : m.Accepted) (a : Algorithm) : ((m.policy h).support a).code = m.value a.name := by
  obtain ⟨hlo, hhi⟩ := value_range h a.name
  show (ChecksumSupport.ofCode (m.value a.name)).code = m.value a.name
  unfold ChecksumSupport.ofCode
  split
  · simp only [ChecksumSupport.code, *]
  · split
    · simp only [ChecksumSupport.code, *]
    · simp only [ChecksumSupport.code]
      omega

theorem refused_iff (h : m.Accepted) (a : Algorithm) : (m.policy h).support a = .refused ↔ m.value a.name = 0 := by
  rw [← code_policy h]
  cases (m.policy h).support a <;> decide

theorem knownHeader_maps (h : m.Accepted) (lname : Bytes) :
    m.maps.knownHeader lname = (m.policy h).knownHeader lname := by
  rw [Bool.eq_iff_iff, ChecksumPolicy.knownHeader, List.any_eq_true]
  simp only [PolicyMaps.knownHeader, decide_eq_true_eq, Bool.and_eq_true, beq_iff_eq, bne_iff_ne, ne_eq,
    refused_iff h]
  constructor
  · intro hne
    cases hlookup : m.maps.byHeader.lookup lname with
    | none => simp [hlookup] at hne
    | some s =>
      obtain ⟨a, hheader, hmem⟩ := (byHeader_lookup h).mp hlookup
      refine ⟨a, a.mem_all, hheader, ?_⟩
      rw [value, m.lookup_eq_some.mpr hmem]
      simpa [hlookup] using hne
  · rintro ⟨a, -, hheader, hne⟩
    cases hlookup : m.entries.lookup a.name with
    | none => simp [value, hlookup] at hne
    | some s =>
      rw [(byHeader_lookup h).mpr ⟨a, hheader, m.lookup_eq_some.mp hlookup⟩]
      simpa [value, hlookup] using hne

theorem support_maps (h : m.Accepted) (name : Bytes) :
    m.maps.support name = ((m.policy h).supportOf name).code := by
  rw [PolicyMaps.support, byName_lookup, ChecksumPolicy.supportOf]
  cases hlookup : lookupAlgorithm name with
  | some a => exact (code_policy h a).symm
  | none =>
    -- no algorithm is listed under the empty name
    show m.value [] = 0
    unfold value
    cases hempty : m.entries.lookup [] with
    | none => rfl
    | some s =>
      obtain ⟨a, hname, -⟩ := h _ (m.lookup_eq_some.mp hempty)
      exact absurd hname.symm (Algorithm.name_ne_nil a)

theorem maps_refines (h : m.Accepted) : m.maps.Refines (m.policy h) where
  support := support_maps h
  knownHeader := knownHeader_maps h
  offered v := by
    unfold PolicyMaps.offered ChecksumPolicy.offered
    simp only [byName_lookup, ne_eq, refused_iff h]

end SupportMap

end Refinement

/-! ## Whatever was set before -/

section Runs

def SupportMap.orElse (held m : SupportMap) : SupportMap := if m.Accepted then m else held

theorem orElse_perm {held held' m m' : SupportMap} (hheld : held.entries.Perm held'.entries)
    (hm : m.entries.Perm m'.entries) : (held.orElse m).entries.Perm (held'.orElse m').entries := by
  unfold SupportMap.orElse
  by_cases h : m.Accepted
  · rw [if_pos h, if_pos ((SupportMap.accepted_perm hm).mp h)]
    exact hm
  · rw [if_neg h, if_neg (mt (SupportMap.accepted_perm hm).mpr h)]
    exact hheld

theorem orElse_accepted {held : SupportMap} (h : held.Accepted) (m : SupportMap) : (held.orElse m).Accepted := by
  unfold SupportMap.orElse
  split
  · assumption
  · exact h

variable [Unicode]

/-- The policy of a gateway after a sequence of calls of `SetChecksumSupport`; `New` would
    panic on an error. -/
def inForce (calls : List SupportMap) : Except SupportError PolicyMaps :=
  (newChecksumPolicy defaultChecksumSupport).map fun q =>
    calls.foldl (fun q m => (setChecksumSupport q m).1) q

def lastAccepted (calls : List SupportMap) : SupportMap := calls.foldl SupportMap.orElse defaultChecksumSupport

theorem setChecksumSupport_maps (held m : SupportMap) :
    (setChecksumSupport held.maps m).1 = (held.orElse m).maps := by
  unfold setChecksumSupport SupportMap.orElse
  by_cases h : m.Accepted
  · rw [newChecksumPolicy_of_accepted h, if_pos h]
  · rw [if_neg h]
    cases hnew : newChecksumPolicy m with
    | error e => rfl
    | ok q => exact absurd (accepted_of_newChecksumPolicy hnew) h

/-- The calls, one after the other: the maps in force are those of an accepted listing, which
    is up to its order the last that was accepted. -/
theorem foldl_setChecksumSupport {calls orders : List SupportMap}
    (h : List.Forall₂ (fun m m' => m.entries.Perm m'.entries) calls orders) {held held' : SupportMap}
    (hheld : held.entries.Perm held'.entries) (haccepted : held'.Accepted) :
    ∃ m : SupportMap, m.Accepted ∧ (calls.foldl SupportMap.orElse held).entries.Perm m.entries ∧
      orders.foldl (fun q m => (setChecksumSupport q m).1) held'.maps = m.maps := by
  induction h generalizing held held' with
  | nil => exact ⟨held', haccepted, hheld, rfl⟩
  | cons hm _ ih =>
    simp only [List.foldl_cons, setChecksumSupport_maps]
    exact ih (orElse_perm hheld hm) (orElse_accepted haccepted _)

/-- Whatever maps are set one after the other, and in whatever order the loop over each of
    them goes: the two maps in force are one policy, that of the last map whose entries are
    all algorithms under their own names with a support they can have, or the default. -/
theorem checksumSupport_inForce {calls orders : List SupportMap}
    (h : List.Forall₂ (fun m m' => m.entries.Perm m'.entries) calls orders) :
    ∃ q p, inForce orders = .ok q ∧ q.Refines p ∧
      ∀ a, (p.support a).code = (lastAccepted calls).value a.name := by
  have hdefault : defaultChecksumSupport.Accepted := by decide +kernel
  obtain ⟨m, hm, hperm, hmaps⟩ := foldl_setChecksumSupport h (List.Perm.refl _) hdefault
  refine ⟨m.maps, m.policy hm, ?_, SupportMap.maps_refines hm, fun a => ?_⟩
  · unfold inForce
    rw [newChecksumPolicy_of_accepted hdefault, ← hmaps]
    rfl
  · rw [SupportMap.code_policy hm]
    exact (SupportMap.value_perm hperm a.name).symm

end Runs

/-- `DefaultChecksumSupport()`: every algorithm has an entry. -/
def DefaultChecksumSupport : SupportMap where
  entries := Algorithm.all.map fun a => (a.name, defaultChecksumSupport.value a.name)
  distinct := by decide +kernel

theorem DefaultChecksumSupport_accepted :
    DefaultChecksumSupport.Accepted ∧
      ∀ a : Algorithm, DefaultChecksumSupport.value a.name = defaultChecksumSupport.value a.name := by
  have hall : ∀ a ∈ Algorithm.all, DefaultChecksumSupport.value a.name = defaultChecksumSupport.value a.name := by
    decide +kernel
  exact ⟨by decide +kernel, fun a => hall a a.mem_all⟩

/-- A service that offers two more algorithms, and then misspells one. -/
def twoMore : List SupportMap :=
  [⟨[(str "SHA512", 2), (str "XXHASH3", 1), (str "CRC32", 0)], by decide +kernel⟩,
    ⟨[(str "sha1", 2), (str "MD5", 2)], by decide +kernel⟩]

/-- A map as a loop may go through it the other way round. -/
def SupportMap.reversed (m : SupportMap) : SupportMap where
  entries := m.entries.reverse
  distinct := by
    rw [List.map_reverse, List.nodup_reverse]
    exact m.distinct

theorem twoMore_inForce :
    let _ := asciiTables
    ∃ q p, inForce (twoMore.map SupportMap.reversed) = .ok q ∧ q.Refines p ∧
      ∀ a, (p.support a).code = if a = .sha512 then 2 else if a = .xxhash3 then 1 else 0 := by
  intro _
  have horders : List.Forall₂ (fun m m' : SupportMap => m.entries.Perm m'.entries) twoMore
      (twoMore.map SupportMap.reversed) :=
    .cons (List.reverse_perm _).symm (.cons (List.reverse_perm _).symm .nil)
  obtain ⟨q, p, hq, hrefines, hp⟩ := checksumSupport_inForce horders
  have hall : ∀ a ∈ Algorithm.all, (lastAccepted twoMore).value a.name =
      if a = .sha512 then 2 else if a = .xxhash3 then 1 else 0 := by
    decide +kernel
  exact ⟨q, p, hq, hrefines, fun a => (hp a).trans (hall a a.mem_all)⟩

end S3Gateway.S3gw
