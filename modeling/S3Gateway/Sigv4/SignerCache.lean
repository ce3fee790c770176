import S3Gateway.Library.Threads
import S3Gateway.Sigv4.Crypto

/-! # The signing-key cache

`signerCache.get` as the three atomic steps it takes: the lookup under the slot's read lock,
the derivation outside any lock and the store under the write lock.  The counters are moved
with the step they count.

The cache is transparent because what a slot holds always belongs together: whoever fills
one writes the id and the key derived for it at once. -/

namespace S3Gateway.Sigv4

open Go S3err Threads

/-! ## The model -/

structure SigningKeyID where
  accessKeyID : Bytes
  version : Bytes
  date : Bytes
  region : Bytes
  derived : Bool
deriving DecidableEq

/-- `signerSlot`, without its lock. -/
structure SignerSlot where
  key : SigningKeyID
  signingKey : Bytes

def emptySlot : SignerSlot := ⟨⟨[], [], [], [], false⟩, []⟩

/-- `signerCache`; the hash of the seed is a parameter of its functions. -/
structure SignerCache where
  slots : List SignerSlot
  hits : UInt64
  misses : UInt64
  displacements : UInt64
  nonempty : 0 < slots.length

def newSignerCache (size : Int) : SignerCache where
  slots := List.replicate (if size < 1 then 1 else size.toNat) emptySlot
  hits := 0
  misses := 0
  displacements := 0
  nonempty := by
    rw [List.length_replicate]
    split <;> omega

/-- `sha256.Size`. -/
def sha256Size : Nat := 32

/-- Why `get` fails: the derivation did, or its key has the wrong length. -/
inductive GetError where
  | derivation (e : LookupError)
  | keyLength (length : Nat)
deriving DecidableEq

/-- The arguments of one `get`. -/
structure GetCall where
  id : SigningKeyID
  derive : Bytes → Bytes → Except LookupError Bytes

/-- Where a `get` is: before its lookup, its derivation or its store, or done. -/
inductive GetPhase where
  | lookup
  | derivation
  | store (k : Bytes)
  | returned (result : Except GetError Bytes)

section

variable (crypto : Crypto) (hash : Bytes → UInt64)

def SignerCache.index (c : SignerCache) (accessKeyID : Bytes) : Fin c.slots.length :=
  ⟨(hash accessKeyID).toNat % c.slots.length, Nat.mod_lt _ c.nonempty⟩

/-- What `get` derives on a miss. -/
def GetCall.derivation (call : GetCall) : Except GetError Bytes :=
  if call.id.derived then
    match call.derive call.id.date call.id.region with
    | .error e => .error (.derivation e)
    | .ok k => if k.length ≠ sha256Size then .error (.keyLength k.length) else .ok k
  else .ok (deriveSigningKey crypto call.id.version call.id.date call.id.region)

/-- The write-locked part of `get`. -/
def SignerCache.put (c : SignerCache) (id : SigningKeyID) (k : Bytes) : SignerCache where
  slots := c.slots.set (c.index hash id.accessKeyID) ⟨id, k⟩
  hits := c.hits
  misses := c.misses
  displacements :=
    let occupant := (c.slots.get (c.index hash id.accessKeyID)).key.accessKeyID
    -- a new date or region for the occupant is a refresh, not a displacement
    if occupant ≠ [] ∧ occupant ≠ id.accessKeyID then c.displacements + 1 else c.displacements
  nonempty := by
    rw [List.length_set]
    exact c.nonempty

/-- The next atomic step of a `get`. -/
def SignerCache.get (call : GetCall) (c : SignerCache) : GetPhase → SignerCache × GetPhase
  | .lookup =>
    let slot := c.slots.get (c.index hash call.id.accessKeyID)
    if slot.key = call.id then ({ c with hits := c.hits + 1 }, .returned (.ok slot.signingKey))
    else ({ c with misses := c.misses + 1 }, .derivation)
  | .derivation =>
    match call.derivation crypto with
    | .error e => (c, .returned (.error e))
    | .ok k => (c, .store k)
  | .store k => (c.put hash call.id k, .returned (.ok k))
  | .returned result => (c, .returned result)

end

/-- The id `Verifier.signingKey` looks a credential's key up under. -/
def signingKeyID (akid : Bytes) (cred : Credential) (date region : Bytes) : SigningKeyID :=
  if cred.hasSigningKey then ⟨akid, cred.secretVersion, date, region, true⟩
  else ⟨akid, cred.secretAccessKey, date, region, false⟩

/-! ## Transparency -/

/-- What the key of an id is: the chain of HMACs from the secret, or what the store's own
    function says. -/
def keyOf (crypto : Crypto) (keyFunc : Bytes → Bytes → Bytes → Bytes → Bytes) (id : SigningKeyID) :
    Bytes :=
  if id.derived then keyFunc id.accessKeyID id.version id.date id.region
  else deriveSigningKey crypto id.version id.date id.region

/-- The `SigningKeyFunc` of a call, where it answers, answers by the access key, the secret
    version, the date and the region. -/
def GetCall.Follows (keyFunc : Bytes → Bytes → Bytes → Bytes → Bytes) (call : GetCall) : Prop :=
  call.id.derived = true → ∀ date region k, call.derive date region = .ok k →
    k = keyFunc call.id.accessKeyID call.id.version date region

section

variable {crypto : Crypto} {hash : Bytes → UInt64}
  {keyFunc : Bytes → Bytes → Bytes → Bytes → Bytes}

/-- The id and the key of a slot belong together; an unused slot has no version. -/
def SignerSlot.Matched (crypto : Crypto) (keyFunc : Bytes → Bytes → Bytes → Bytes → Bytes)
    (slot : SignerSlot) : Prop :=
  slot.key.version ≠ [] → slot.signingKey = keyOf crypto keyFunc slot.key

def SignerCache.Matched (crypto : Crypto) (keyFunc : Bytes → Bytes → Bytes → Bytes → Bytes)
    (c : SignerCache) : Prop :=
  ∀ slot ∈ c.slots, slot.Matched crypto keyFunc

/-- A key on its way, to the slot or to the caller, is the one of the call's id. -/
def GetCall.Bound (crypto : Crypto) (keyFunc : Bytes → Bytes → Bytes → Bytes → Bytes)
    (call : GetCall) : GetPhase → Prop
  | .store k => call.derivation crypto = .ok k ∧ k = keyOf crypto keyFunc call.id
  | .returned (.ok k) => k = keyOf crypto keyFunc call.id
  | _ => True

theorem matched_newSignerCache (size : Int) :
    (newSignerCache size).Matched crypto keyFunc := by
  intro slot hslot
  rw [List.eq_of_mem_replicate hslot]
  intro h
  exact absurd rfl h

theorem derivation_eq_ok {call : GetCall} {k : Bytes} (hfollows : call.Follows keyFunc)
    (h : call.derivation crypto = .ok k) : k = keyOf crypto keyFunc call.id := by
  unfold GetCall.derivation at h
  unfold keyOf
  split at h
  · rename_i hderived
    rw [if_pos hderived]
    split at h
    · cases h
    · rename_i key hkey
      split at h
      · cases h
      · obtain rfl := Except.ok.inj h
        exact hfollows hderived _ _ _ hkey
  · rename_i hderived
    rw [if_neg hderived]
    exact (Except.ok.inj h).symm

theorem get_keeps {call : GetCall} (hversion : call.id.version ≠ [])
    (hfollows : call.Follows keyFunc) {c : SignerCache} {phase : GetPhase}
    (hc : c.Matched crypto keyFunc) (hphase : call.Bound crypto keyFunc phase) :
    (SignerCache.get crypto hash call c phase).1.Matched crypto keyFunc ∧
      call.Bound crypto keyFunc (SignerCache.get crypto hash call c phase).2 := by
  -- a hit finds the key of its own id, and what is stored was derived for the id it is stored under
  cases phase with
  | lookup =>
    simp only [SignerCache.get]
    split
    · rename_i hhit
      refine ⟨hc, ?_⟩
      have hslot := hc _ (List.get_mem c.slots (c.index hash call.id.accessKeyID))
      rw [SignerSlot.Matched, hhit] at hslot
      exact hslot hversion
    · exact ⟨hc, trivial⟩
  | derivation =>
    simp only [SignerCache.get]
    split
    · exact ⟨hc, trivial⟩
    · rename_i k hk
      exact ⟨hc, hk, derivation_eq_ok hfollows hk⟩
  | store k =>
    refine ⟨?_, hphase.2⟩
    intro slot hslot
    rcases List.mem_or_eq_of_mem_set hslot with hslot | rfl
    · exact hc slot hslot
    · intro _
      exact hphase.2
  | returned result => exact ⟨hc, hphase⟩

theorem get_slots {call : GetCall} {e : GetError} (hfails : call.derivation crypto = .error e)
    {c : SignerCache} {phase : GetPhase} (hphase : call.Bound crypto keyFunc phase) :
    (SignerCache.get crypto hash call c phase).1.slots = c.slots := by
  cases phase with
  | lookup =>
    simp only [SignerCache.get]
    split <;> rfl
  | derivation => simp only [SignerCache.get, hfails]
  | store k => simp [hphase.1] at hfails
  | returned result => rfl

end

section

variable {ι : Type} [DecidableEq ι]

/-- A fresh cache of `size` slots with every call before its lookup, after a schedule. -/
def concurrentGets (crypto : Crypto) (hash : Bytes → UInt64) (size : Int) (calls : ι → GetCall)
    (schedule : List ι) : System ι SignerCache GetPhase :=
  interleave (fun i => SignerCache.get crypto hash (calls i))
    ⟨newSignerCache size, fun _ => .lookup⟩ schedule

variable (crypto : Crypto) (hash : Bytes → UInt64)
  (keyFunc : Bytes → Bytes → Bytes → Bytes → Bytes) (size : Int) (calls : ι → GetCall)

/-- What the callers may rely on, whatever happens at the same time. -/
structure Transparent (schedule : List ι) : Prop where
  exactKey : ∀ {i k}, (concurrentGets crypto hash size calls schedule).own i = .returned (.ok k) →
    k = keyOf crypto keyFunc (calls i).id
  -- the next step of a call whose derivation fails leaves the slots as they are
  untouched : ∀ {i e}, (calls i).derivation crypto = .error e →
    (concurrentGets crypto hash size calls (schedule ++ [i])).shared.slots =
      (concurrentGets crypto hash size calls schedule).shared.slots
  -- a call is over after its three steps
  returns : ∀ {i}, 3 ≤ schedule.count i →
    ∃ result, (concurrentGets crypto hash size calls schedule).own i = .returned result

variable {keyFunc calls}

theorem concurrentGets_keep (hversion : ∀ i, (calls i).id.version ≠ [])
    (hfollows : ∀ i, (calls i).Follows keyFunc) (schedule : List ι) :
    (concurrentGets crypto hash size calls schedule).shared.Matched crypto keyFunc ∧
      ∀ i, (calls i).Bound crypto keyFunc
        ((concurrentGets crypto hash size calls schedule).own i) := by
  apply interleave_invariant
  · intro i c phase hc hphase
    exact get_keeps (hversion i) (hfollows i) hc hphase
  · exact matched_newSignerCache size
  · intro i
    exact trivial

variable {crypto hash size}

def GetPhase.remaining : GetPhase → Nat
  | .lookup => 3
  | .derivation => 2
  | .store _ => 1
  | .returned _ => 0

theorem get_remaining (call : GetCall) (c : SignerCache) (phase : GetPhase) :
    (SignerCache.get crypto hash call c phase).2.remaining ≤ phase.remaining - 1 := by
  cases phase with
  | lookup =>
    simp only [SignerCache.get]
    split <;> simp [GetPhase.remaining]
  | derivation =>
    simp only [SignerCache.get]
    split <;> simp [GetPhase.remaining]
  | store k => simp [SignerCache.get, GetPhase.remaining]
  | returned result => simp [SignerCache.get, GetPhase.remaining]

theorem concurrentGets_returns {i : ι} {schedule : List ι} (h : 3 ≤ schedule.count i) :
    ∃ result, (concurrentGets crypto hash size calls schedule).own i = .returned result := by
  have hprogress : ((concurrentGets crypto hash size calls schedule).own i).remaining ≤
      3 - schedule.count i :=
    interleave_progress (fun i => get_remaining (calls i)) i schedule
  generalize (concurrentGets crypto hash size calls schedule).own i = phase at hprogress
  cases phase with
  | returned result => exact ⟨result, rfl⟩
  | lookup => simp only [GetPhase.remaining] at hprogress; omega
  | derivation => simp only [GetPhase.remaining] at hprogress; omega
  | store k => simp only [GetPhase.remaining] at hprogress; omega

/-- Nobody can tell the cache from deriving every key anew, but for the time it takes. -/
theorem signerCache_transparent (crypto : Crypto) (hash : Bytes → UInt64)
    (keyFunc : Bytes → Bytes → Bytes → Bytes → Bytes) (size : Int) (calls : ι → GetCall)
    (hversion : ∀ i, (calls i).id.version ≠ []) (hfollows : ∀ i, (calls i).Follows keyFunc)
    (schedule : List ι) : Transparent crypto hash keyFunc size calls schedule := by
  obtain ⟨-, hbound⟩ := concurrentGets_keep crypto hash size hversion hfollows schedule
  refine ⟨?_, ?_, concurrentGets_returns⟩
  · intro i k hreturned
    have hi := hbound i
    rw [hreturned] at hi
    exact hi
  · intro i e hfails
    rw [concurrentGets, interleave, Machine.after_append]
    exact get_slots hfails (hbound i)

end

/-- Two calls under one access key whose secret was rotated in between. -/
def rotatedCalls (rotated : Bool) : GetCall where
  id := ⟨str "AKID", if rotated then str "new" else str "old", str "20260101", str "r", false⟩
  derive _ _ := .error .other

theorem rotatedCalls_transparent :
    Transparent ⟨id, fun key data => key ++ data⟩ (fun _ => 7) (fun _ _ _ _ => []) 1 rotatedCalls
        [false, true, false, true, true, false] ∧
      deriveSigningKey ⟨id, fun key data => key ++ data⟩ (str "old") (str "20260101") (str "r") =
        str "AWS4old20260101rs3aws4_request" := by
  refine ⟨?_, by decide⟩
  apply signerCache_transparent
  · intro rotated
    cases rotated <;> decide
  · intro rotated hderived
    cases hderived

/-- The lookup lets no credential through whose id would have an empty version. -/
theorem signingKeyID_version {v : Verifier} {akid token : Bytes} {cred : Credential}
    (h : lookupSecret v akid token = .ok cred) (date region : Bytes) :
    (signingKeyID akid cred date region).version ≠ [] := by
  unfold lookupSecret at h
  split at h
  · cases h
  · cases h
  · cases h
  · split at h
    · cases h
    · rename_i found _ hvalid
      obtain rfl := Except.ok.inj h
      rw [Bool.or_eq_true, not_or] at hvalid
      obtain ⟨hone, hversion⟩ := hvalid
      unfold signingKeyID
      cases hkind : found.hasSigningKey with
      | true => simpa [hkind] using hversion
      | false => simpa [hkind] using hone

end S3Gateway.Sigv4
