import S3Gateway.Library.Paging
import S3Gateway.S3gw.HandleRequest
import S3Gateway.S3rp.Config

/-! # Walking through the buckets

A client lists its buckets page by page, each request with the token of the reply before it.
Between two requests buckets may come and go, and the one a token names may be among those. -/

namespace S3Gateway.S3gw

open Go Paging

def NameOrder : Type := List Nat

instance : LinearOrder NameOrder := inferInstanceAs (LinearOrder (List Nat))

def nameKey (name : Bytes) : NameOrder := name.map UInt8.toNat

theorem nameKey_injective : Function.Injective nameKey :=
  List.map_injective_iff.mpr fun _ _ h => UInt8.toNat_inj.mp h

theorem nil_le_nameKey (name : Bytes) : nameKey [] ≤ nameKey name := by
  by_contra hlt
  exact absurd (bytesLe_nil (le_of_not_ge hlt)) fun hnil => hlt (hnil ▸ le_rfl)

theorem nil_lt_nameKey {name : Bytes} (h : name ≠ []) : nameKey [] < nameKey name :=
  (nil_le_nameKey name).lt_of_ne fun heq => h (nameKey_injective heq).symm

/-! ## One page -/

/-- The entries after the token, as `sort.Slice` and `sort.Search` find them. -/
def entriesAfter (entries : List BucketEntry) (token : Bytes) : List BucketEntry :=
  let sorted := entries.insertionSort fun a b => bytesLe a.name b.name
  if token = [] then sorted else sorted.drop (search sorted.length fun i => sorted[i]?.any fun e => ¬bytesLe e.name token)

theorem sorted_entries (entries : List BucketEntry) :
    (entries.insertionSort fun a b => bytesLe a.name b.name).Pairwise fun a b => nameKey a.name ≤ nameKey b.name := by
  have htotal : Std.Total fun a b : BucketEntry => bytesLe a.name b.name := ⟨fun a b => Std.Total.total (r := bytesLe) a.name b.name⟩
  have htrans : IsTrans BucketEntry fun a b => bytesLe a.name b.name := ⟨fun _ _ _ hab hbc => le_trans hab hbc⟩
  exact List.pairwise_insertionSort _ entries

theorem entriesAfter_eq (entries : List BucketEntry) (token : Bytes) :
    entriesAfter entries token =
      let sorted := entries.insertionSort fun a b => bytesLe a.name b.name
      if token = [] then sorted else sorted.dropWhile fun e => bytesLe e.name token := by
  unfold entriesAfter
  dsimp only
  split
  · rfl
  · have hmono : (entries.insertionSort fun a b => bytesLe a.name b.name).Pairwise fun a b =>
        decide (¬bytesLe a.name token) = true → decide (¬bytesLe b.name token) = true := by
      refine (sorted_entries entries).imp fun hab ha => ?_
      simp only [decide_eq_true_eq] at ha ⊢
      exact fun hb => ha (le_trans hab hb)
    rw [drop_search hmono]
    simp

theorem listPage_eq (entries : List BucketEntry) (token : Bytes) (maxBuckets : Int) :
    listPage entries token maxBuckets =
      if maxBuckets < (entriesAfter entries token).length then
        ((entriesAfter entries token).take maxBuckets.toNat,
          (((entriesAfter entries token).take maxBuckets.toNat).getLast?.map (·.name)).getD [])
      else (entriesAfter entries token, []) := by
  rw [entriesAfter_eq]
  rfl

/-- The buckets of a tenant: the store keeps valid names, and each once. -/
structure Listing (entries : List BucketEntry) : Prop where
  distinct : (entries.map (·.name)).Nodup
  named : ∀ e ∈ entries, S3rp.isBucketName e.name = true

theorem Listing.ne_nil {entries : List BucketEntry} (h : Listing entries) {e : BucketEntry} (he : e ∈ entries) :
    e.name ≠ [] := by
  intro hnil
  have hname := h.named e he
  rw [hnil] at hname
  cases hname

section Page

variable {entries : List BucketEntry} (h : Listing entries)

include h

theorem Listing.entriesAfter_filter (token : Bytes) :
    entriesAfter entries token =
      (entries.insertionSort fun a b => bytesLe a.name b.name).filter fun e => nameKey token < nameKey e.name := by
  rw [entriesAfter_eq]
  dsimp only
  split
  · rename_i htoken
    subst htoken
    refine (List.filter_eq_self.mpr fun e he => ?_).symm
    exact decide_eq_true (nil_lt_nameKey (h.ne_nil ((List.mem_insertionSort _).mp he)))
  · exact dropWhile_eq_filter (sorted_entries entries) (nameKey token)

theorem Listing.mem_entriesAfter (token : Bytes) (e : BucketEntry) :
    e ∈ entriesAfter entries token ↔ e ∈ entries ∧ nameKey token < nameKey e.name := by
  rw [h.entriesAfter_filter, List.mem_filter, List.mem_insertionSort]
  simp

theorem Listing.entriesAfter_increasing (token : Bytes) :
    (entriesAfter entries token).Pairwise fun a b => nameKey a.name < nameKey b.name := by
  rw [h.entriesAfter_filter]
  refine List.Pairwise.filter _ ?_
  -- sorted with repetitions allowed, and there are none
  have hperm := List.perm_insertionSort (fun a b : BucketEntry => bytesLe a.name b.name) entries
  have hnodup := (hperm.map (·.name)).nodup_iff.mpr h.distinct
  rw [List.nodup_iff_pairwise_ne, List.pairwise_map] at hnodup
  exact ((sorted_entries entries).and hnodup).imp fun ⟨hle, hne⟩ => hle.lt_of_ne fun heq => hne (nameKey_injective heq)

theorem Listing.listPage_isPage (token : Bytes) {maxBuckets : Int} (hmax : 1 ≤ maxBuckets) :
    IsPage (fun e : BucketEntry => nameKey e.name) (nameKey []) entries (nameKey token) (listPage entries token maxBuckets).1
      (nameKey (listPage entries token maxBuckets).2) := by
  have hinc := h.entriesAfter_increasing token
  have hmem := h.mem_entriesAfter token
  rw [listPage_eq]
  split
  · rename_i hlt
    have hne : (entriesAfter entries token).take maxBuckets.toNat ≠ [] := by
      intro hnil
      rw [List.take_eq_nil_iff] at hnil
      rcases hnil with hzero | hzero
      · omega
      · rw [hzero, List.length_nil] at hlt
        omega
    obtain ⟨last, hlast⟩ := Option.isSome_iff_exists.mp (List.getLast?_isSome.mpr hne)
    rw [hlast]
    exact isPage_take hinc hmem (nil_le_nameKey token) (by omega) hlast
  · exact isPage_all hinc hmem

end Page

/-! ## A walk of requests -/

theorem listPageSize_pos {r : Request} {n : Int} (h : listPageSize r = .ok n) : 1 ≤ n := by
  unfold listPageSize at h
  dsimp only at h
  split at h
  · cases h
    decide
  · split at h
    · split at h
      · cases h
      · rename_i hrange
        cases h
        omega
    · cases h

section Walk

variable (vr : VerifiedRequest)

/-- A request for a page and its reply, with the buckets there were at that time. -/
structure ListVisit where
  g : Gateway
  r : Request
  entries : List BucketEntry
  reply : ListAllMyBucketsResult
  listing : Listing entries
  stored : g.store.listBuckets vr.tenant = .ok entries
  answered : listBuckets g r vr = .ok (.bucketList reply)

def ListVisit.names {vr : VerifiedRequest} (v : ListVisit vr) : List Bytes := v.reply.buckets.map (·.1)

def ListVisit.token {vr : VerifiedRequest} (v : ListVisit vr) : Bytes := v.r.url.query.get (str "continuation-token")

/-- Requests that follow the tokens: each sends the one it was given, and none is sent once a reply
    had none. -/
inductive FollowsTokens : Bytes → List (ListVisit vr) → Bytes → Prop where
  | nil (token : Bytes) : FollowsTokens token [] token
  | cons {token : Bytes} {v : ListVisit vr} {rest : List (ListVisit vr)} {final : Bytes} :
      v.token = token → (rest ≠ [] → v.reply.continuationToken ≠ []) →
      FollowsTokens v.reply.continuationToken rest final → FollowsTokens token (v :: rest) final

theorem listBuckets_eq {g : Gateway} {r : Request} {entries : List BucketEntry} {n : Int} (hn : listPageSize r = .ok n)
    (hstored : g.store.listBuckets vr.tenant = .ok entries) :
    listBuckets g r vr = .ok (.bucketList
      { owner := vr.tenant
        buckets := (listPage entries (r.url.query.get (str "continuation-token")) n).1.map fun e => (e.name, e.createdAt.getD 0)
        continuationToken := (listPage entries (r.url.query.get (str "continuation-token")) n).2 }) := by
  unfold listBuckets
  rw [hn, hstored]
  rfl

variable {vr}

theorem ListVisit.page_eq (v : ListVisit vr) :
    ∃ n, 1 ≤ n ∧ v.names = (listPage v.entries v.token n).1.map (·.name) ∧
      v.reply.continuationToken = (listPage v.entries v.token n).2 := by
  cases hn : listPageSize v.r with
  | error e =>
    have hanswered := v.answered
    rw [listBuckets, hn] at hanswered
    cases hanswered
  | ok n =>
    have hreply : v.reply = _ := Response.bucketList.inj (Except.ok.inj (v.answered.symm.trans (listBuckets_eq vr hn v.stored)))
    refine ⟨n, listPageSize_pos hn, ?_, ?_⟩
    · rw [ListVisit.names, hreply, List.map_map]
      rfl
    · rw [hreply]
      rfl

theorem FollowsTokens.walk {token final : Bytes} {visits : List (ListVisit vr)} (h : FollowsTokens vr token visits final) :
    ∃ pages : List (Visit BucketEntry),
      Walk (fun e : BucketEntry => nameKey e.name) (nameKey []) (nameKey token) pages (nameKey final) ∧
        pages.map (·.entries) = visits.map (·.entries) ∧
        (listed pages).map (·.name) = visits.flatMap (·.names) := by
  induction h with
  | nil token => exact ⟨[], .nil _, rfl, rfl⟩
  | @cons token v rest final hsent hmore _ ih =>
    subst hsent
    obtain ⟨pages, hwalk, hentries, hlisted⟩ := ih
    obtain ⟨n, hn, hnames, htoken⟩ := v.page_eq
    have hpage := v.listing.listPage_isPage v.token hn
    rw [← htoken] at hpage
    refine ⟨⟨v.entries, (listPage v.entries v.token n).1⟩ :: pages, .cons hpage (fun hne hbot => ?_) hwalk, ?_, ?_⟩
    · refine hmore (fun hrest => hne ?_) (nameKey_injective hbot)
      rw [hrest] at hentries
      exact List.map_eq_nil_iff.mp hentries
    · rw [List.map_cons, hentries, List.map_cons]
    · rw [List.flatMap_cons, hnames, ← hlisted, listed, List.flatMap_cons, List.map_append]
      rfl

variable (vr)

/-- What a walk from the first page lists increases strictly, so nothing is listed twice; once the last
    page was reached, every bucket that was there all along is listed.  While the buckets stay, the last
    page is reached after as many pages as there are buckets, or after the first. -/
theorem listBuckets_walk (visits : List (ListVisit vr)) (final : Bytes) (h : FollowsTokens vr [] visits final) :
    (visits.flatMap (·.names)).Pairwise (fun a b => bytesLe a b ∧ a ≠ b) ∧
      (visits.flatMap (·.names)).Nodup ∧
      (visits ≠ [] → final = [] → ∀ name, (∀ v ∈ visits, name ∈ v.entries.map (·.name)) →
        (visits.flatMap (·.names)).count name = 1) ∧
      ∀ entries, (∀ v ∈ visits, v.entries.Perm entries) →
        visits.length ≤ max 1 entries.length ∧ (final ≠ [] → visits.length < max 1 entries.length) ∧
          ∀ g r n, listPageSize r = .ok n → g.store.listBuckets vr.tenant = .ok entries →
            ∃ reply, listBuckets g r vr = .ok (.bucketList reply) := by
  -- the visits are a walk in the sense of the library, over keys that order as the names do
  obtain ⟨pages, hwalk, hentries, hlisted⟩ := h.walk
  have hincreasing : (visits.flatMap (·.names)).Pairwise fun a b => bytesLe a b ∧ a ≠ b := by
    rw [← hlisted, List.pairwise_map]
    exact hwalk.increasing.imp fun hlt => ⟨hlt.le, fun heq => hlt.ne (congrArg nameKey heq)⟩
  have hnodup : (visits.flatMap (·.names)).Nodup := hincreasing.imp And.right
  have hlength : pages.length = visits.length := by
    simpa using congrArg List.length hentries
  refine ⟨hincreasing, hnodup, fun hne hfinal name hpresent => ?_, fun entries hsame => ?_⟩
  · -- a bucket that every page could see is above the empty token the walk began with
    have hpages : pages ≠ [] := by
      rintro rfl
      exact hne (List.map_eq_nil_iff.mp hentries.symm)
    have hthere : ∀ v ∈ pages, ∃ e ∈ v.entries, nameKey e.name = nameKey name := by
      intro v hv
      obtain ⟨w, hw, heq⟩ := List.mem_map.mp (hentries ▸ List.mem_map_of_mem hv)
      obtain ⟨e, he, hname⟩ := List.mem_map.mp (hpresent w hw)
      exact ⟨e, heq ▸ he, congrArg nameKey hname⟩
    have hnonempty : name ≠ [] := by
      obtain ⟨v, hv⟩ := List.exists_mem_of_ne_nil _ hne
      obtain ⟨e, he, rfl⟩ := List.mem_map.mp (hpresent v hv)
      exact v.listing.ne_nil he
    obtain ⟨e, he, hkey⟩ := hwalk.complete (congrArg nameKey hfinal) hpages hthere (nil_lt_nameKey hnonempty)
    have hmem : name ∈ visits.flatMap (·.names) := by
      rw [← hlisted]
      exact List.mem_map.mpr ⟨e, he, nameKey_injective hkey⟩
    exact List.count_eq_one_of_mem hnodup hmem
  -- with the same buckets on every page, each token leaves fewer of them above it
  · have hsame' : ∀ v ∈ pages, v.entries.Perm entries := by
      intro v hv
      obtain ⟨w, hw, heq⟩ := List.mem_map.mp (hentries ▸ List.mem_map_of_mem hv)
      exact heq ▸ hsame w hw
    have hcount : countAbove (fun e : BucketEntry => nameKey e.name) entries (nameKey []) ≤ entries.length :=
      List.length_filter_le _ _
    refine ⟨?_, fun hfinal => ?_, fun g r n hn hstored => ⟨_, listBuckets_eq vr hn hstored⟩⟩
    · have hle := hwalk.length_le hsame'
      omega
    · -- an unfinished walk has at least one page, and a bucket left
      have hne : pages ≠ [] := by
        rintro rfl
        rw [List.length_nil, eq_comm, List.length_eq_zero_iff] at hlength
        subst hlength
        cases h
        exact hfinal rfl
      have hlt := hwalk.length_lt hsame' hne fun heq => hfinal (nameKey_injective heq)
      omega

end Walk

/-! ### A walk while buckets change -/

theorem notFound_tenant {tenant _bucket : Bytes} {b : Bucket}
    (h : (.error .notFound : Except S3err.StoreError Bucket) = .ok b) : b.tenant = tenant := by
  cases h

/-- A store of one tenant with buckets of these names. -/
def namedStore (names : List Bytes) : Store where
  getBucket _ _ := .error .notFound
  getBucketByName _ := .error .notFound
  listBuckets _ := .ok (names.map fun name => ⟨name, none⟩)
  getBucket_tenant := @notFound_tenant

/-- `GET /?query`. -/
def listRequest (query : Bytes) : Request :=
  ⟨str "GET", str "/", { path := str "/", rawQuery := query }, str "h", [], 0, []⟩

/-- The visit with a request whose page size is in range. -/
def ListVisit.make (vr : VerifiedRequest) (names : List Bytes) (query : Bytes) (n : Int)
    (hlisting : Listing (names.map fun name => ⟨name, none⟩))
    (hn : listPageSize (listRequest query) = .ok n) : ListVisit vr where
  g := { sharedGateway with store := namedStore names }
  r := listRequest query
  entries := names.map fun name => ⟨name, none⟩
  reply := _
  listing := hlisting
  stored := rfl
  answered := listBuckets_eq vr hn rfl

theorem listPageSize_one : listPageSize (listRequest (str "max-buckets=1")) = .ok 1 := by
  have hvalue : (listRequest (str "max-buckets=1")).url.query.get (str "max-buckets") = str "1" := by decide +kernel
  have hparse : parseInt 10 64 (str "1") = some 1 := by decide +kernel
  unfold listPageSize
  rw [hvalue]
  simp only [hparse]
  rfl

theorem listPageSize_default : listPageSize (listRequest (str "continuation-token=aaa")) = .ok maxListBuckets := by
  have hvalue : (listRequest (str "continuation-token=aaa")).url.query.get (str "max-buckets") = [] := by decide +kernel
  simp [listPageSize, hvalue]

def firstVisit : ListVisit sharedDeleteCtx.vr :=
  .make _ [str "ccc", str "aaa", str "bbb"] (str "max-buckets=1") 1 ⟨by decide, by decide⟩ listPageSize_one

/-- The second page: the bucket the token names is gone, another one has been created. -/
def secondVisit : ListVisit sharedDeleteCtx.vr :=
  .make _ [str "bbb", str "aab", str "ccc"] (str "continuation-token=aaa") maxListBuckets ⟨by decide, by decide⟩
    listPageSize_default

theorem twoVisits_list_once :
    FollowsTokens sharedDeleteCtx.vr [] [firstVisit, secondVisit] [] ∧
      ([firstVisit, secondVisit].flatMap (·.names)).Nodup ∧
      ([firstVisit, secondVisit].flatMap (·.names)).count (str "bbb") = 1 := by
  have hfirst : firstVisit.reply.continuationToken = str "aaa" := by decide +kernel
  have hsecond : secondVisit.reply.continuationToken = [] := by decide +kernel
  have hfollows : FollowsTokens sharedDeleteCtx.vr [] [firstVisit, secondVisit] [] := by
    refine .cons (by decide +kernel) (fun _ => by decide +kernel) (.cons ?_ (fun h => absurd rfl h) ?_)
    · rw [hfirst]
      decide +kernel
    · rw [hsecond]
      exact .nil _
  obtain ⟨-, hnodup, hcount, -⟩ := listBuckets_walk sharedDeleteCtx.vr _ _ hfollows
  refine ⟨hfollows, hnodup, hcount (List.cons_ne_nil _ _) rfl (str "bbb") ?_⟩
  exact List.forall_mem_cons.mpr ⟨by decide +kernel, List.forall_mem_cons.mpr ⟨by decide +kernel, List.forall_mem_nil _⟩⟩

end S3Gateway.S3gw
