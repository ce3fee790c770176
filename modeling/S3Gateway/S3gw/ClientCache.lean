import S3Gateway.Library.Lru
import S3Gateway.Library.Threads
import S3Gateway.S3rp.Config
import Mathlib.Algebra.BigOperators.Ring.Finset

/-! # The cache of backend clients

`backendClient`, `SetBackend` and `SetClientCacheSize` as the atomic steps they take: each
call of the LRU cache holds its lock, the counters are atomic and moved on their own, and
the cache reports an evicted entry only after it let go of the lock.  Any number of them run
at once.  The cache itself comes from another module (`golang-lru`), so it is any with the
laws of one.

Two arguments carry the results.  What stands under a key was put there for that key, so a
caller gets a client of its own backend whoever else is at work.  And an entry that few
enough other backends were used after cannot be evicted, so its backend keeps one client. -/

namespace S3Gateway.S3gw

open Go S3rp Threads

/-! ## Clients -/

structure ClientCacheKey where
  endpoint : Bytes
  region : Bytes
  accessKeyID : Bytes
  secret : Bytes
  usePathStyle : Bool
deriving DecidableEq

def newClientCacheKey (b : BackendConfig) : ClientCacheKey where
  endpoint := b.endpoint
  region := b.region
  accessKeyID := b.accessKeyID
  secret := b.secretAccessKey
  usePathStyle := b.usePathStyle.getD false

/-- What `newBackendClient` sets a client up with.  `options` is what the hooks of
    `SetClientOptions` and `SetBreaker` contribute, `pool` the connections of its own. -/
structure SdkClient (ω : Type) where
  region : Bytes
  /-- none is the default chain of the SDK -/
  credentials : Option (Bytes × Bytes)
  /-- none is the endpoint the SDK resolves from the region -/
  baseEndpoint : Option Bytes
  usePathStyle : Bool
  options : ω
  pool : Nat

variable {ω : Type}

/-- `newBackendClient(ctx, b, ..)` once the configuration is loaded. -/
def newBackendClient (hooks : BackendConfig → ω) (pool : Nat) (b : BackendConfig) : SdkClient ω where
  region := b.region
  credentials := if b.accessKeyID ≠ [] then some (b.accessKeyID, b.secretAccessKey) else none
  baseEndpoint := if b.endpoint ≠ [] then some b.endpoint else none
  usePathStyle := b.usePathStyle.getD false
  options := hooks b
  pool := pool

/-- A client reaches the backend of a definition with its credentials; the hooks may have
    seen another bucket of that backend. -/
structure SdkClient.Reaches (hooks : BackendConfig → ω) (client : SdkClient ω) (b : BackendConfig) :
    Prop where
  region : client.region = b.region
  credentials :
    client.credentials = if b.accessKeyID ≠ [] then some (b.accessKeyID, b.secretAccessKey) else none
  baseEndpoint : client.baseEndpoint = if b.endpoint ≠ [] then some b.endpoint else none
  usePathStyle : client.usePathStyle = b.usePathStyle.getD false
  options : ∃ b', newClientCacheKey b' = newClientCacheKey b ∧ client.options = hooks b'

theorem newBackendClient_reaches (hooks : BackendConfig → ω) (pool : Nat) {b b' : BackendConfig}
    (h : newClientCacheKey b' = newClientCacheKey b) :
    (newBackendClient hooks pool b').Reaches hooks b := by
  have hkey := h
  simp only [newClientCacheKey, ClientCacheKey.mk.injEq] at h
  obtain ⟨hendpoint, hregion, hakid, hsecret, hstyle⟩ := h
  constructor
  case region => exact hregion
  case credentials => simp only [newBackendClient, hakid, hsecret]
  case baseEndpoint => simp only [newBackendClient, hendpoint]
  case usePathStyle => exact hstyle
  case options => exact ⟨b', hkey, rfl⟩

/-! ## The steps -/

/-- The client cache of a `Gateway` and its counters. -/
structure ClientCache (C : Type) where
  clients : C
  hits : Nat
  misses : Nat
  evictions : Nat
  /-- `clientCacheCap` -/
  cap : Int

variable {C : Type}

def defaultClientCacheSize : Nat := 128

/-- The cache `New` makes. -/
def newClientCache (ops : Lru.Ops ClientCacheKey (SdkClient ω) C) : ClientCache C where
  clients := ops.new defaultClientCacheSize
  hits := 0
  misses := 0
  evictions := 0
  cap := defaultClientCacheSize

structure CacheStats where
  hits : Nat
  misses : Nat
  evictions : Nat
  len : Nat
  capacity : Int

/-- `ClientCacheStats()`, when nothing else is at work. -/
def ClientCache.clientCacheStats (ops : Lru.Ops ClientCacheKey (SdkClient ω) C) (g : ClientCache C) :
    CacheStats where
  hits := g.hits
  misses := g.misses
  evictions := g.evictions
  len := ops.len g.clients
  capacity := g.cap

inductive CacheCall (ω : Type) where
  | backendClient (b : BackendConfig)
  /-- `SetBackend` for a bucket of the backend -/
  | setBackend (b : BackendConfig) (client : SdkClient ω)
  | setClientCacheSize (n : Int)

inductive CacheResult (ω : Type) where
  | client (c : SdkClient ω)
  /-- the configuration could not be loaded -/
  | failed (e : Bytes)
  | done

inductive CachePhase (ω : Type) where
  | get (b : BackendConfig)
  | countHit (client : SdkClient ω)
  | countMiss (b : BackendConfig)
  | newClient (b : BackendConfig)
  | peekOrAdd (key : ClientCacheKey) (client : SdkClient ω)
  | add (key : ClientCacheKey) (client : SdkClient ω)
  | storeCap (n : Nat)
  | resize (n : Nat)
  /-- the callbacks for the entries a call evicted -/
  | evicted (n : Nat) (result : CacheResult ω)
  | returned (result : CacheResult ω)

def CacheCall.start : CacheCall ω → CachePhase ω
  | backendClient b => .get b
  | setBackend b client => .add (newClientCacheKey b) client
  | setClientCacheSize n => .storeCap (if n < 1 then 1 else n.toNat)

/-- The next step of a call; `loaded` is what loading its configuration gives. -/
def ClientCache.move (ops : Lru.Ops ClientCacheKey (SdkClient ω) C) (hooks : BackendConfig → ω)
    (loaded : Except Bytes Nat) (g : ClientCache C) : CachePhase ω → ClientCache C × CachePhase ω
  | .get b =>
    match ops.get g.clients (newClientCacheKey b) with
    | (clients, some client) => ({ g with clients }, .countHit client)
    | (clients, none) => ({ g with clients }, .countMiss b)
  | .countHit client => ({ g with hits := g.hits + 1 }, .returned (.client client))
  | .countMiss b => ({ g with misses := g.misses + 1 }, .newClient b)
  | .newClient b =>
    match loaded with
    | .error e => (g, .returned (.failed e))
    | .ok pool => (g, .peekOrAdd (newClientCacheKey b) (newBackendClient hooks pool b))
  | .peekOrAdd key client =>
    match ops.peekOrAdd g.clients key client with
    -- another goroutine built one meanwhile
    | (clients, some previous, n) => ({ g with clients }, .evicted n (.client previous))
    | (clients, none, n) => ({ g with clients }, .evicted n (.client client))
  | .add key client =>
    match ops.add g.clients key client with
    | (clients, n) => ({ g with clients }, .evicted n .done)
  | .storeCap n => ({ g with cap := n }, .resize n)
  | .resize n =>
    match ops.resize g.clients n with
    | (clients, evicted) => ({ g with clients }, .evicted evicted .done)
  | .evicted (n + 1) result => ({ g with evictions := g.evictions + 1 }, .evicted n result)
  | .evicted 0 result => (g, .returned result)
  | .returned result => (g, .returned result)

variable {ops : Lru.Ops ClientCacheKey (SdkClient ω) C}
  {view : C → Lru.Contents ClientCacheKey (SdkClient ω)}

/-- What one step can do, by what the cache holds before and after it. -/
inductive ClientCache.Moved (view : C → Lru.Contents ClientCacheKey (SdkClient ω))
    (hooks : BackendConfig → ω) (g : ClientCache C) :
    CachePhase ω → ClientCache C → CachePhase ω → Prop where
  | hit {b client clients} (h : (view g.clients).peek (newClientCacheKey b) = some client)
      (hclients : view clients = (view g.clients).touch (newClientCacheKey b) client h) :
      Moved view hooks g (.get b) { g with clients } (.countHit client)
  | miss {b clients} (hclients : view clients = view g.clients) :
      Moved view hooks g (.get b) { g with clients } (.countMiss b)
  | countHit {client} :
      Moved view hooks g (.countHit client) { g with hits := g.hits + 1 } (.returned (.client client))
  | countMiss {b} : Moved view hooks g (.countMiss b) { g with misses := g.misses + 1 } (.newClient b)
  | failed {b e} : Moved view hooks g (.newClient b) g (.returned (.failed e))
  | built {b pool} :
      Moved view hooks g (.newClient b) g
        (.peekOrAdd (newClientCacheKey b) (newBackendClient hooks pool b))
  | converged {key client previous clients} (h : (view g.clients).peek key = some previous)
      (hclients : view clients = view g.clients) :
      Moved view hooks g (.peekOrAdd key client) { g with clients } (.evicted 0 (.client previous))
  | inserted {key client clients} (h : (view g.clients).peek key = none)
      (hclients : view clients = (view g.clients).put key client) :
      Moved view hooks g (.peekOrAdd key client) { g with clients }
        (.evicted ((view g.clients).excess key client) (.client client))
  | added {key client clients} (hclients : view clients = (view g.clients).put key client) :
      Moved view hooks g (.add key client) { g with clients }
        (.evicted ((view g.clients).excess key client) .done)
  | storedCap {n : Nat} : Moved view hooks g (.storeCap n) { g with cap := n } (.resize n)
  | resized {n clients} (hclients : view clients = (view g.clients).resize n) :
      Moved view hooks g (.resize n) { g with clients }
        (.evicted ((view g.clients).entries.length - n) .done)
  | counted {n result} :
      Moved view hooks g (.evicted (n + 1) result) { g with evictions := g.evictions + 1 }
        (.evicted n result)
  | finished {result} : Moved view hooks g (.evicted 0 result) g (.returned result)
  | idle {result} : Moved view hooks g (.returned result) g (.returned result)

theorem ClientCache.move_moved (hlru : ops.Laws view) (hooks : BackendConfig → ω)
    (loaded : Except Bytes Nat) (g : ClientCache C) (phase : CachePhase ω) :
    ClientCache.Moved view hooks g phase (g.move ops hooks loaded phase).1
      (g.move ops hooks loaded phase).2 := by
  -- each call of the cache falls under one law, chosen by whether the key is cached
  cases phase with
  | get b =>
    cases h : (view g.clients).peek (newClientCacheKey b) with
    | some client =>
      obtain ⟨clients, hget, hclients⟩ := hlru.get_hit _ _ _ h
      simp only [move, hget]
      exact .hit h hclients
    | none =>
      obtain ⟨clients, hget, hclients⟩ := hlru.get_miss _ _ h
      simp only [move, hget]
      exact .miss hclients
  | countHit client => exact .countHit
  | countMiss b => exact .countMiss
  | newClient b =>
    cases loaded with
    | error e => exact .failed
    | ok pool => exact .built
  | peekOrAdd key client =>
    cases h : (view g.clients).peek key with
    | some previous =>
      obtain ⟨clients, hadd, hclients⟩ := hlru.peekOrAdd_hit _ _ client _ h
      simp only [move, hadd]
      exact .converged h hclients
    | none =>
      obtain ⟨clients, hadd, hclients⟩ := hlru.peekOrAdd_miss _ _ client h
      simp only [move, hadd]
      exact .inserted h hclients
  | add key client =>
    obtain ⟨clients, hadd, hclients⟩ := hlru.add g.clients key client
    simp only [move, hadd]
    exact .added hclients
  | storeCap n => exact .storedCap
  | resize n =>
    obtain ⟨clients, hresize, hclients⟩ := hlru.resize g.clients n
    simp only [move, hresize]
    exact .resized hclients
  | evicted n result =>
    cases n with
    | zero => exact .finished
    | succ n => exact .counted
  | returned result => exact .idle

/-! ## Runs -/

section

variable {ι : Type} [DecidableEq ι] (ops : Lru.Ops ClientCacheKey (SdkClient ω) C)
  (hooks : BackendConfig → ω) (loaded : ι → Except Bytes Nat) (calls : ι → CacheCall ω)

/-- A new gateway's cache after a schedule of the calls' steps. -/
def concurrentClients (schedule : List ι) : System ι (ClientCache C) (CachePhase ω) :=
  interleave (fun i g phase => g.move ops hooks (loaded i) phase)
    ⟨newClientCache ops, fun i => (calls i).start⟩ schedule

variable {ops hooks loaded calls}

def CacheCall.key : CacheCall ω → Option ClientCacheKey
  | backendClient b => some (newClientCacheKey b)
  | setBackend b _ => some (newClientCacheKey b)
  | setClientCacheSize _ => none

/-! ## A client of one's own backend -/

/-- The client was built for the key, or installed under it. -/
def Belongs (hooks : BackendConfig → ω) (calls : ι → CacheCall ω) (key : ClientCacheKey)
    (client : SdkClient ω) : Prop :=
  (∃ b pool, newClientCacheKey b = key ∧ client = newBackendClient hooks pool b) ∨
    ∃ i b, calls i = .setBackend b client ∧ newClientCacheKey b = key

def Sorted (hooks : BackendConfig → ω) (calls : ι → CacheCall ω)
    (held : Lru.Contents ClientCacheKey (SdkClient ω)) : Prop :=
  ∀ e ∈ held.entries, Belongs hooks calls e.1 e.2

/-- A client that is returned belongs to the key of the call. -/
def CacheResult.Bound (hooks : BackendConfig → ω) (calls : ι → CacheCall ω)
    (key : Option ClientCacheKey) : CacheResult ω → Prop
  | .client c => ∃ k, key = some k ∧ Belongs hooks calls k c
  | _ => True

/-- A call acts on its own key, and the client on its way belongs to that. -/
def CachePhase.Bound (hooks : BackendConfig → ω) (calls : ι → CacheCall ω)
    (key : Option ClientCacheKey) : CachePhase ω → Prop
  | .get b | .countMiss b | .newClient b => key = some (newClientCacheKey b)
  | .peekOrAdd k client | .add k client => key = some k ∧ Belongs hooks calls k client
  | .countHit client => (CacheResult.client client).Bound hooks calls key
  | .evicted _ result | .returned result => result.Bound hooks calls key
  | .storeCap _ | .resize _ => True

omit [DecidableEq ι] in
theorem start_bound (i : ι) : ((calls i).start).Bound hooks calls (calls i).key := by
  cases h : calls i with
  | backendClient b => exact rfl
  | setBackend b client => exact ⟨rfl, .inr ⟨i, b, h, rfl⟩⟩
  | setClientCacheSize n => trivial

omit [DecidableEq ι] in
theorem Sorted.put {held : Lru.Contents ClientCacheKey (SdkClient ω)} {key : ClientCacheKey}
    {client : SdkClient ω} (h : Sorted hooks calls held) (hclient : Belongs hooks calls key client) :
    Sorted hooks calls (held.put key client) := by
  intro e he
  rcases Lru.Contents.mem_of_mem_put he with rfl | he
  · exact hclient
  · exact h e he

omit [DecidableEq ι] in
theorem moved_keeps {g g' : ClientCache C} {phase phase' : CachePhase ω}
    {key : Option ClientCacheKey} (hmoved : ClientCache.Moved view hooks g phase g' phase')
    (hg : Sorted hooks calls (view g.clients)) (hphase : phase.Bound hooks calls key) :
    Sorted hooks calls (view g'.clients) ∧ phase'.Bound hooks calls key := by
  cases hmoved with
  | hit h hclients =>
    refine ⟨?_, _, hphase, hg _ ((view g.clients).mem_of_peek h)⟩
    rw [hclients]
    intro e he
    exact hg e (Lru.Contents.mem_of_mem_touch (h := h) he)
  | miss hclients => exact ⟨hclients ▸ hg, hphase⟩
  | built => exact ⟨hg, hphase, .inl ⟨_, _, rfl, rfl⟩⟩
  | converged h hclients =>
    exact ⟨hclients ▸ hg, _, hphase.1, hg _ ((view g.clients).mem_of_peek h)⟩
  | inserted h hclients => exact ⟨hclients ▸ hg.put hphase.2, _, hphase.1, hphase.2⟩
  | added hclients => exact ⟨hclients ▸ hg.put hphase.2, trivial⟩
  | resized hclients =>
    refine ⟨?_, trivial⟩
    rw [hclients]
    intro e he
    exact hg e (Lru.Contents.mem_of_mem_resize he)
  -- only the counters move
  | countHit | countMiss | counted | finished | idle => exact ⟨hg, hphase⟩
  | failed | storedCap => exact ⟨hg, trivial⟩

theorem concurrentClients_sorted (hlru : ops.Laws view) (schedule : List ι) :
    Sorted hooks calls (view (concurrentClients ops hooks loaded calls schedule).shared.clients) ∧
      ∀ i, ((concurrentClients ops hooks loaded calls schedule).own i).Bound hooks calls
        (calls i).key := by
  refine interleave_invariant (I := fun g : ClientCache C => Sorted hooks calls (view g.clients))
    ?_ ?_ start_bound schedule
  · intro i g phase hg hphase
    exact moved_keeps (ClientCache.move_moved hlru hooks (loaded i) g phase) hg hphase
  · intro e he
    rw [newClientCache, hlru.new] at he
    cases he

/-- Whatever runs at the same time, and however often the cache is resized, `backendClient`
    returns a client that reaches the backend it was asked for with the credentials of that
    backend, unless `SetBackend` installed the client for it. -/
theorem backendClient_reaches (hlru : ops.Laws view) {schedule : List ι} {i : ι} {b : BackendConfig}
    {client : SdkClient ω} (hcall : calls i = .backendClient b)
    (hreturned :
      (concurrentClients ops hooks loaded calls schedule).own i = .returned (.client client)) :
    client.Reaches hooks b ∨
      ∃ j b', calls j = .setBackend b' client ∧ newClientCacheKey b' = newClientCacheKey b := by
  obtain ⟨-, hbound⟩ : _ ∧ ∀ i,
      ((concurrentClients ops hooks loaded calls schedule).own i).Bound hooks calls (calls i).key :=
    concurrentClients_sorted hlru schedule
  specialize hbound i
  rw [hreturned, hcall] at hbound
  obtain ⟨k, hk, hbelongs⟩ := hbound
  obtain rfl := Option.some.inj hk
  rcases hbelongs with ⟨b', pool, hkey, rfl⟩ | hinstalled
  · exact .inl (newBackendClient_reaches hooks pool hkey)
  · exact .inr hinstalled

/-! ## One client for a backend -/

def CacheResult.handed : CacheResult ω → Option (SdkClient ω)
  | .client c => some c
  | _ => none

def CachePhase.handed : CachePhase ω → Option (SdkClient ω)
  | .countHit client => some client
  | .evicted _ result | .returned result => result.handed
  | _ => none

theorem unhanded {phase : CachePhase ω} (h : phase.handed = none) (x : Option (SdkClient ω)) :
    ∀ c, phase.handed = some c → x = some c := by
  intro c hc
  rw [h] at hc
  cases hc

/-- Apart from the backend of `k` the calls use those of `S`, for which the cache has room
    at every size it is given; nobody installs a client for `k`. -/
structure FewBackends (k : ClientCacheKey) (S : Finset ClientCacheKey) (calls : ι → CacheCall ω) :
    Prop where
  others : ∀ {i j}, (calls i).key = some j → j = k ∨ j ∈ S
  notInstalled : ∀ {i b client}, calls i = .setBackend b client → newClientCacheKey b ≠ k
  sizes : ∀ {i n}, calls i = .setClientCacheSize n → (S.card : Int) < max n 1
  room : S.card < defaultClientCacheSize

def CachePhase.Within (k : ClientCacheKey) (S : Finset ClientCacheKey)
    (key : Option ClientCacheKey) : CachePhase ω → Prop
  | .get b | .countMiss b | .newClient b => key = some (newClientCacheKey b)
  | .peekOrAdd j _ => key = some j
  | .add j _ => key = some j ∧ j ≠ k
  | .storeCap n | .resize n => S.card < n
  | _ => True

variable {k : ClientCacheKey} {S : Finset ClientCacheKey}

omit [DecidableEq ι] in
theorem start_within (hfew : FewBackends k S calls) (i : ι) :
    ((calls i).start).Within k S (calls i).key := by
  cases h : calls i with
  | backendClient b => exact rfl
  | setBackend b client => exact ⟨rfl, hfew.notInstalled h⟩
  | setClientCacheSize n =>
    have hsize := hfew.sizes h
    simp only [CacheCall.start, CachePhase.Within]
    split <;> omega

theorem moved_within {g g' : ClientCache C} {phase phase' : CachePhase ω}
    {key : Option ClientCacheKey} (hmoved : ClientCache.Moved view hooks g phase g' phase')
    (hphase : phase.Within k S key) : phase'.Within k S key := by
  cases hmoved <;> first | exact hphase | exact trivial

/-- All calls for `k` are going to return the client cached for it, and that stays. -/
structure OneClient (view : C → Lru.Contents ClientCacheKey (SdkClient ω)) (k : ClientCacheKey)
    (S : Finset ClientCacheKey) (calls : ι → CacheCall ω)
    (s : System ι (ClientCache C) (CachePhase ω)) : Prop where
  within : ∀ i, (s.own i).Within k S (calls i).key
  room : S.card < (view s.shared.clients).size
  one : ∃ x, Lru.Keeps k S (view s.shared.clients).entries x ∧
    ∀ i, (calls i).key = some k → ∀ c, (s.own i).handed = some c → x = some c

/-- A step of a call for another backend moves the entry of `k` back at most, and one for `k`
    itself hands out what is cached or caches what it hands out. -/
theorem moved_one {g g' : ClientCache C} {phase phase' : CachePhase ω}
    {key : Option ClientCacheKey} (hmoved : ClientCache.Moved view hooks g phase g' phase')
    (hkey : ∀ j, key = some j → j = k ∨ j ∈ S) (hphase : phase.Within k S key)
    (hroom : S.card < (view g.clients).size) {x : Option (SdkClient ω)}
    (hx : Lru.Keeps k S (view g.clients).entries x)
    (hown : key = some k → ∀ c, phase.handed = some c → x = some c) :
    S.card < (view g'.clients).size ∧
      ((Lru.Keeps k S (view g'.clients).entries x ∧
          (key = some k → ∀ c, phase'.handed = some c → x = some c)) ∨
        x = none ∧ ∃ c, Lru.Keeps k S (view g'.clients).entries (some c) ∧ phase'.handed = some c) := by
  cases hmoved with
  | hit h hclients =>
    rw [hclients]
    refine ⟨hroom, .inl ⟨Lru.Contents.keeps_touch hx h (hkey _ hphase), ?_⟩⟩
    intro hk c hc
    obtain rfl := Option.some.inj (hphase.symm.trans hk)
    rw [← Lru.Contents.peek_of_keeps hx, h]
    exact hc
  | miss hclients =>
    rw [hclients]
    exact ⟨hroom, .inl ⟨hx, fun _ => unhanded rfl x⟩⟩
  | converged h hclients =>
    rw [hclients]
    refine ⟨hroom, .inl ⟨hx, ?_⟩⟩
    intro hk c hc
    obtain rfl := Option.some.inj (hphase.symm.trans hk)
    rw [← Lru.Contents.peek_of_keeps hx, h]
    exact hc
  | @inserted j client clients h hclients =>
    rw [hclients]
    refine ⟨hroom, ?_⟩
    by_cases hj : j = k
    · subst hj
      refine .inr ⟨(Lru.Contents.peek_of_keeps hx).symm.trans h, client, ?_, rfl⟩
      exact Lru.Contents.keeps_put_self hroom
    · refine .inl ⟨Lru.Contents.keeps_put hx hroom ((hkey j hphase).resolve_left hj) hj, ?_⟩
      intro hk
      exact absurd (Option.some.inj (hphase.symm.trans hk)) hj
  | added hclients =>
    rw [hclients]
    obtain ⟨hj, hne⟩ := hphase
    exact ⟨hroom, .inl ⟨Lru.Contents.keeps_put hx hroom ((hkey _ hj).resolve_left hne) hne,
      fun _ => unhanded rfl x⟩⟩
  | resized hclients =>
    rw [hclients]
    exact ⟨hphase, .inl ⟨Lru.Contents.keeps_resize hx hphase, fun _ => unhanded rfl x⟩⟩
  -- the cache is as it was, and so is the client on its way, if there is one
  | countHit | counted | finished | idle => exact ⟨hroom, .inl ⟨hx, hown⟩⟩
  | countMiss | failed | built | storedCap => exact ⟨hroom, .inl ⟨hx, fun _ => unhanded rfl x⟩⟩

theorem oneClient_step (hlru : ops.Laws view) (hfew : FewBackends k S calls)
    {s : System ι (ClientCache C) (CachePhase ω)} (h : OneClient view k S calls s) (i : ι) :
    OneClient view k S calls (step (fun i g phase => g.move ops hooks (loaded i) phase) s i) := by
  obtain ⟨hwithin, hroom, x, hx, hown⟩ := h
  -- the call that moves keeps the entry; the others own what they owned
  have hmoved := ClientCache.move_moved hlru hooks (loaded i) s.shared (s.own i)
  obtain ⟨hroom', hone⟩ :=
    moved_one hmoved (fun j => hfew.others) (hwithin i) hroom hx (hown i)
  refine ⟨?_, hroom', ?_⟩
  · intro j
    by_cases hj : j = i
    · subst hj
      rw [step_own_self]
      exact moved_within hmoved (hwithin j)
    · rw [step_own_of_ne hj]
      exact hwithin j
  · rcases hone with ⟨hx', hown'⟩ | ⟨rfl, c, hc, hhanded⟩
    · refine ⟨x, hx', ?_⟩
      intro j hkey
      by_cases hj : j = i
      · subst hj
        rw [step_own_self]
        exact hown' hkey
      · rw [step_own_of_ne hj]
        exact hown j hkey
    · -- the first client for `k`: no call for it has one yet
      refine ⟨some c, hc, ?_⟩
      intro j hkey d hd
      by_cases hj : j = i
      · subst hj
        rw [step_own_self, hhanded] at hd
        exact hd
      · rw [step_own_of_ne hj] at hd
        have hnone := hown j hkey d hd
        cases hnone

omit [DecidableEq ι] in
theorem start_oneClient (hlru : ops.Laws view) (hfew : FewBackends k S calls) :
    OneClient view k S calls ⟨newClientCache ops, fun i => (calls i).start⟩ := by
  have hnew : view (newClientCache ops).clients = .empty _ _ defaultClientCacheSize := hlru.new _
  constructor
  case within => exact start_within hfew
  case room =>
    rw [hnew]
    exact hfew.room
  case one =>
    refine ⟨none, ?_, ?_⟩
    · rw [hnew]
      intro v hv
      cases hv
    · intro i _ c hc
      cases h : calls i <;> simp [h, CacheCall.start, CachePhase.handed] at hc

/-- However the calls interleave, all that ask for one backend get the same client, and so
    share one pool of connections, as long as no more backends are in use than the cache
    has room for. -/
theorem backendClient_single (hlru : ops.Laws view) (hfew : FewBackends k S calls)
    {schedule : List ι} {i j : ι} {c d : SdkClient ω} (hi : (calls i).key = some k) (hj : (calls j).key = some k)
    (hc : (concurrentClients ops hooks loaded calls schedule).own i = .returned (.client c))
    (hd : (concurrentClients ops hooks loaded calls schedule).own j = .returned (.client d)) :
    c = d := by
  have hone : OneClient view k S calls (concurrentClients ops hooks loaded calls schedule) :=
    interleave_induction (start_oneClient hlru hfew) (fun _ i h => oneClient_step hlru hfew h i)
      schedule
  obtain ⟨x, -, hown⟩ := hone.one
  have hxc : x = some c := hown i hi c (by rw [hc]; rfl)
  have hxd : x = some d := hown j hj d (by rw [hd]; rfl)
  exact Option.some.inj (hxc.symm.trans hxd)

/-! ## What the counters say -/

def CachePhase.uncounted : CachePhase ω → Int
  | .get _ | .countHit _ | .countMiss _ => 1
  | _ => 0

/-- What a call is still allowed to add to the entries and the evictions: an entry of its
    own, or the evictions it has caused. -/
def CachePhase.due : CachePhase ω → Int
  | .newClient _ | .peekOrAdd _ _ | .add _ _ => 1
  | .evicted n _ => n
  | _ => 0

theorem moved_uncounted {g g' : ClientCache C} {phase phase' : CachePhase ω}
    (hmoved : ClientCache.Moved view hooks g phase g' phase') :
    (g'.hits + g'.misses : Int) + phase'.uncounted = g.hits + g.misses + phase.uncounted := by
  cases hmoved <;> simp [CachePhase.uncounted] <;> omega

theorem moved_due {g g' : ClientCache C} {phase phase' : CachePhase ω}
    (hmoved : ClientCache.Moved view hooks g phase g' phase') :
    ((view g'.clients).entries.length + g'.evictions - g'.misses : Int) + phase'.due ≤
      (view g.clients).entries.length + g.evictions - g.misses + phase.due := by
  cases hmoved with
  | hit h hclients => simp [CachePhase.due, hclients, Lru.Contents.length_touch]
  | miss hclients | converged _ hclients => simp [CachePhase.due, hclients]
  | @inserted key client _ _ hclients | @added key client _ hclients =>
    have hlength := Lru.Contents.length_put_le (c := view g.clients) key client
    simp only [CachePhase.due, hclients]
    omega
  | @resized n _ hclients =>
    have hlength := Lru.Contents.length_resize (c := view g.clients) n
    simp only [CachePhase.due, hclients]
    omega
  | countHit | countMiss | failed | built | storedCap | counted | finished | idle =>
    simp only [CachePhase.due]
    omega

section

variable [Fintype ι]

def CacheCall.isLookup : CacheCall ω → Bool
  | backendClient _ => true
  | _ => false

def CacheCall.isInstall : CacheCall ω → Bool
  | setBackend _ _ => true
  | _ => false

omit [DecidableEq ι] in
theorem sum_start {p : CacheCall ω → Bool} {weight : CachePhase ω → Int}
    (h : ∀ call : CacheCall ω, weight call.start = if p call then 1 else 0) :
    ∑ i, weight (calls i).start = Fintype.card { i // p (calls i) } := by
  rw [Fintype.card_subtype, Finset.sum_congr rfl fun i _ => h (calls i), Finset.sum_boole]

omit [DecidableEq ι] in
theorem total_returned {f : ClientCache C → Int} {weight : CachePhase ω → Int}
    (h : ∀ result, weight (.returned result) = 0)
    {s : System ι (ClientCache C) (CachePhase ω)}
    (hreturned : ∀ i, ∃ result, s.own i = .returned result) : total f weight s = f s.shared := by
  rw [total, Finset.sum_eq_zero, add_zero]
  intro i _
  obtain ⟨result, hresult⟩ := hreturned i
  rw [hresult]
  exact h result

/-- Once all calls have returned, the statistics add up: every lookup was a hit or a miss,
    and what is cached or was evicted had been built after a miss or installed. -/
theorem clientCacheStats_balance (hlru : ops.Laws view) {schedule : List ι} {stats : CacheStats}
    (hstats : (concurrentClients ops hooks loaded calls schedule).shared.clientCacheStats ops = stats)
    (hreturned : ∀ i, ∃ result,
      (concurrentClients ops hooks loaded calls schedule).own i = .returned result) :
    stats.hits + stats.misses = Fintype.card { i // (calls i).isLookup } ∧
      stats.len + stats.evictions ≤ stats.misses + Fintype.card { i // (calls i).isInstall } := by
  subst hstats
  simp only [ClientCache.clientCacheStats, hlru.len]
  constructor
  · have htotal := total_interleave (f := fun g : ClientCache C => (g.hits + g.misses : Int))
      (s := ⟨newClientCache ops, fun i => (calls i).start⟩)
      (fun i g phase => moved_uncounted (ClientCache.move_moved hlru hooks (loaded i) g phase)) schedule
    rw [← concurrentClients, total_returned (fun _ => rfl) hreturned, total,
      sum_start (p := CacheCall.isLookup) (fun call => by cases call <;> rfl)] at htotal
    simp only [newClientCache] at htotal
    omega
  · have htotal := total_interleave_le
      (f := fun g : ClientCache C => ((view g.clients).entries.length + g.evictions - g.misses : Int))
      (s := ⟨newClientCache ops, fun i => (calls i).start⟩)
      (fun i g phase => moved_due (ClientCache.move_moved hlru hooks (loaded i) g phase)) schedule
    rw [← concurrentClients, total_returned (fun _ => rfl) hreturned, total,
      sum_start (p := CacheCall.isInstall) (fun call => by cases call <;> rfl)] at htotal
    simp only [newClientCache, hlru.new, Lru.Contents.empty, List.length_nil] at htotal
    omega

end

end

/-! Two calls that miss at the same time: the later one converges on the client of the first. -/

def racedBackend : BackendConfig where
  endpoint := str "https://s3"
  region := str "r"
  bucket := str "b"
  accessKeyID := str "AK"
  secretAccessKey := str "SK"
  usePathStyle := some true

def racingCalls (_ : Bool) : CacheCall Unit := .backendClient racedBackend

def racingPools (i : Bool) : Except Bytes Nat := .ok i.toNat

def racingSchedule : List Bool :=
  [false, true, false, true, false, true, true, true, true, false, false]

/-- The gateway after the race, with the cache that is what it holds. -/
def raced : System Bool (ClientCache (Lru.Contents ClientCacheKey (SdkClient Unit))) (CachePhase Unit) :=
  concurrentClients (Lru.plain _ _) (fun _ => ()) racingPools racingCalls racingSchedule

theorem racingCalls_few : FewBackends (newClientCacheKey racedBackend) ∅ racingCalls where
  others h := .inl (Option.some.inj h).symm
  notInstalled h := by cases h
  sizes h := by cases h
  room := by decide

/-- Both calls of the race return the client of the one that came first to `PeekOrAdd`. -/
theorem racing_returned (i : Bool) :
    raced.own i = .returned (.client (newBackendClient (fun _ => ()) 1 racedBackend)) := by
  cases i <;> rfl

theorem racing_reaches :
    (newBackendClient (fun _ => ()) 1 racedBackend).Reaches (fun _ => ()) racedBackend ∨
      ∃ j b', racingCalls j = .setBackend b' (newBackendClient (fun _ => ()) 1 racedBackend) ∧
        newClientCacheKey b' = newClientCacheKey racedBackend :=
  backendClient_reaches Lru.plain_laws rfl (racing_returned false)

/-- Each call built a client, and both return one of them. -/
theorem racing_single :
    racingPools false ≠ racingPools true ∧
      ∃ c d, raced.own false = .returned (.client c) ∧ raced.own true = .returned (.client d) ∧ c = d :=
  ⟨fun h => absurd (Except.ok.inj h) (by decide), _, _, racing_returned false, racing_returned true,
    backendClient_single Lru.plain_laws racingCalls_few rfl rfl (racing_returned false)
      (racing_returned true)⟩

theorem racing_balance :
    let stats := raced.shared.clientCacheStats (Lru.plain _ _)
    stats.hits + stats.misses = Fintype.card { i // (racingCalls i).isLookup } ∧
      stats.len + stats.evictions ≤ stats.misses + Fintype.card { i // (racingCalls i).isInstall } :=
  clientCacheStats_balance Lru.plain_laws rfl fun i => ⟨_, racing_returned i⟩

end S3Gateway.S3gw
