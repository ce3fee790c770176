import Mathlib.Data.List.Sort
import Mathlib.Order.Basic

/-! # Listing in pages

A listing is handed out in pages of sorted entries.  Each page starts above a token, and its own
token, where there are entries left, is the last key on it.  The entries may change between two
pages.  Everything here is over arbitrary entries with keys in a linear order that has a least
element, which is the token of the first page and stands for "no more" in a reply. -/

namespace Paging

variable {ε α : Type*} [LinearOrder α]

/-- What one page owes to the entries at the time it is made. -/
structure IsPage (key : ε → α) (bot : α) (entries : List ε) (token : α) (page : List ε) (next : α) : Prop where
  increasing : page.Pairwise fun a b => key a < key b
  above : ∀ e ∈ page, e ∈ entries ∧ token < key e
  /-- Nothing up to the next token is left out, and nothing at all on a last page. -/
  complete : ∀ e ∈ entries, token < key e → (next ≠ bot → key e ≤ next) → e ∈ page
  upto : next ≠ bot → ∀ e ∈ page, key e ≤ next
  reached : next ≠ bot → ∃ e ∈ page, key e = next
  left : next ≠ bot → ∃ e ∈ entries, next < key e

/-- A page together with the entries it was made of. -/
structure Visit (ε : Type*) where
  entries : List ε
  page : List ε

/-- Pages that were asked for one after another, each with the token of the one before.  Only a page
    with a token is followed. -/
inductive Walk (key : ε → α) (bot : α) : α → List (Visit ε) → α → Prop where
  | nil (token : α) : Walk key bot token [] token
  | cons {token next final : α} {v : Visit ε} {rest : List (Visit ε)} :
      IsPage key bot v.entries token v.page next → (rest ≠ [] → next ≠ bot) → Walk key bot next rest final →
      Walk key bot token (v :: rest) final

/-- All that was listed, in the order it was. -/
def listed (visits : List (Visit ε)) : List ε := visits.flatMap (·.page)

variable {key : ε → α} {bot : α}

theorem IsPage.token_lt {entries page : List ε} {token next : α} (h : IsPage key bot entries token page next)
    (hnext : next ≠ bot) : token < next := by
  obtain ⟨e, he, hkey⟩ := h.reached hnext
  exact hkey ▸ (h.above e he).2

/-! ## Making a page -/

/-- In increasing entries, those above a token are a final part. -/
theorem dropWhile_eq_filter {entries : List ε} (h : entries.Pairwise fun a b => key a ≤ key b) (token : α) :
    (entries.dropWhile fun e => key e ≤ token) = entries.filter fun e => token < key e := by
  induction entries with
  | nil => rfl
  | cons e rest ih =>
    obtain ⟨hhead, hrest⟩ := List.pairwise_cons.mp h
    by_cases he : key e ≤ token
    · simp [he, ih hrest]
    · have hall : ∀ e' ∈ rest, token < key e' := fun e' he' => (not_le.mp he).trans_le (hhead e' he')
      rw [List.dropWhile_cons_of_neg (by simpa using he), List.filter_cons_of_pos (by simpa using he),
        List.filter_eq_self.mpr (by simpa using hall)]

section Make

variable {entries rest : List ε} {token : α} (hinc : rest.Pairwise fun a b => key a < key b)
  (hmem : ∀ e, e ∈ rest ↔ e ∈ entries ∧ token < key e)

include hinc hmem

theorem isPage_all : IsPage key bot entries token rest bot where
  increasing := hinc
  above := fun e he => (hmem e).mp he
  complete := fun e he htoken _ => (hmem e).mpr ⟨he, htoken⟩
  upto := fun h => absurd rfl h
  reached := fun h => absurd rfl h
  left := fun h => absurd rfl h

/-- A first part of what is above the token, with the last key of it. -/
theorem isPage_take (hbot : bot ≤ token) {n : Nat} (hn : n < rest.length) {last : ε}
    (hlast : (rest.take n).getLast? = some last) : IsPage key bot entries token (rest.take n) (key last) := by
  have hlastMem : last ∈ rest.take n := List.mem_of_getLast? hlast
  have hnext : key last ≠ bot := (hbot.trans_lt ((hmem last).mp (List.mem_of_mem_take hlastMem)).2).ne'
  have hsplit := hinc
  rw [← List.take_append_drop n rest, List.pairwise_append] at hsplit
  obtain ⟨hpage, -, hcross⟩ := hsplit
  -- the entries increase, so the last of the page is its greatest
  have hupto : ∀ e ∈ rest.take n, key e ≤ key last := by
    obtain ⟨front, hfront⟩ := List.getLast?_eq_some_iff.mp hlast
    rw [hfront] at hpage ⊢
    intro e he
    rcases List.mem_append.mp he with hin | hin
    · exact ((List.pairwise_append.mp hpage).2.2 e hin last (List.mem_singleton_self _)).le
    · rw [List.mem_singleton.mp hin]
  refine
    { increasing := hpage
      above := fun e he => (hmem e).mp (List.mem_of_mem_take he)
      complete := fun e he htoken hle => ?_
      upto := fun _ => hupto
      reached := fun _ => ⟨last, hlastMem, rfl⟩
      left := fun _ => ?_ }
  · have hin := (hmem e).mpr ⟨he, htoken⟩
    rw [← List.take_append_drop n rest, List.mem_append] at hin
    exact hin.resolve_right fun hdrop => absurd (hle hnext) (not_le.mpr (hcross last hlastMem e hdrop))
  · have hne : rest.drop n ≠ [] := by simpa using hn
    obtain ⟨e, he⟩ := List.exists_mem_of_ne_nil _ hne
    exact ⟨e, ((hmem e).mp (List.mem_of_mem_drop he)).1, hcross last hlastMem e he⟩

end Make

/-! ## Walks -/

/-- Later pages stay above the token the walk went on from. -/
theorem Walk.above {token final : α} {visits : List (Visit ε)} (h : Walk key bot token visits final) :
    ∀ e ∈ listed visits, token < key e := by
  induction h with
  | nil => exact List.forall_mem_nil _
  | @cons token next final v rest hpage hmore _ ih =>
    intro e he
    rcases List.mem_append.mp he with hhere | hlater
    · exact (hpage.above e hhere).2
    · have hne : rest ≠ [] := by
        rintro rfl
        cases hlater
      exact (hpage.token_lt (hmore hne)).trans (ih e hlater)

/-- What is listed increases, across the pages as on each of them. -/
theorem Walk.increasing {token final : α} {visits : List (Visit ε)} (h : Walk key bot token visits final) :
    (listed visits).Pairwise fun a b => key a < key b := by
  induction h with
  | nil => exact .nil
  | @cons token next final v rest hpage hmore hrest ih =>
    refine List.pairwise_append.mpr ⟨hpage.increasing, ih, fun a ha b hb => ?_⟩
    have hne : rest ≠ [] := by
      rintro rfl
      cases hb
    exact (hpage.upto (hmore hne) a ha).trans_lt (hrest.above b hb)

/-- A walk to the end passes every key that is there on all its pages. -/
theorem Walk.complete {token final : α} {visits : List (Visit ε)} (h : Walk key bot token visits final)
    (hend : final = bot) (hne : visits ≠ []) {k : α} (hk : ∀ v ∈ visits, ∃ e ∈ v.entries, key e = k) (htoken : token < k) :
    ∃ e ∈ listed visits, key e = k := by
  induction h with
  | nil => exact absurd rfl hne
  | @cons token next final v rest hpage hmore hrest ih =>
    obtain ⟨e, he, rfl⟩ := hk v List.mem_cons_self
    -- the entry is on this page unless the page ends below it
    by_cases hhere : next ≠ bot → key e ≤ next
    · exact ⟨e, List.mem_append_left _ (hpage.complete e he htoken hhere), rfl⟩
    · obtain ⟨hnext, hlater⟩ := Classical.not_imp.mp hhere
      have hne' : rest ≠ [] := by
        rintro rfl
        cases hrest
        exact hnext hend
      obtain ⟨e', he', hkey⟩ := ih hend hne' (fun v' hv' => hk v' (List.mem_cons_of_mem _ hv')) (not_le.mp hlater)
      exact ⟨e', List.mem_append_right _ he', hkey⟩

def countAbove (key : ε → α) (entries : List ε) (token : α) : Nat := (entries.filter fun e => token < key e).length

theorem IsPage.countAbove_lt {entries page : List ε} {token next : α} (h : IsPage key bot entries token page next)
    (hnext : next ≠ bot) : countAbove key entries next < countAbove key entries token := by
  obtain ⟨e, he, hkey⟩ := h.reached hnext
  obtain ⟨hmem, htoken⟩ := h.above e he
  have hsub : (entries.filter fun e => next < key e) = (entries.filter fun e => token < key e).filter fun e => next < key e := by
    rw [List.filter_filter]
    refine List.filter_congr fun x _ => ?_
    by_cases hx : next < key x
    · simp [hx, (h.token_lt hnext).trans hx]
    · simp [hx]
  rw [countAbove, countAbove, hsub]
  refine List.length_filter_lt_length_iff_exists.mpr ⟨e, List.mem_filter.mpr ⟨hmem, by simpa using htoken⟩, ?_⟩
  simp [hkey]

theorem IsPage.countAbove_pos {entries page : List ε} {token next : α} (h : IsPage key bot entries token page next)
    (hnext : next ≠ bot) : 0 < countAbove key entries next := by
  obtain ⟨e, he, hlt⟩ := h.left hnext
  exact List.length_pos_of_mem (List.mem_filter.mpr ⟨he, by simpa using hlt⟩)

theorem countAbove_perm {entries entries' : List ε} (h : entries.Perm entries') (token : α) :
    countAbove key entries token = countAbove key entries' token :=
  (h.filter _).length_eq

section Unchanged

variable {entries : List ε} {token final : α} {visits : List (Visit ε)}

/-- A page of the same entries that has a token leaves fewer of them, and some. -/
theorem IsPage.countAbove_of_perm {here page : List ε} {next : α} (h : IsPage key bot here token page next)
    (hhere : here.Perm entries) (hnext : next ≠ bot) :
    countAbove key entries next < countAbove key entries token ∧ 0 < countAbove key entries next := by
  rw [← countAbove_perm hhere, ← countAbove_perm hhere]
  exact ⟨h.countAbove_lt hnext, h.countAbove_pos hnext⟩

/-- While the entries stay, a page that has a token takes an entry from those that are left, and leaves
    one. -/
theorem Walk.length_lt (h : Walk key bot token visits final) (hsame : ∀ v ∈ visits, v.entries.Perm entries)
    (hne : visits ≠ []) (hfinal : final ≠ bot) : visits.length < countAbove key entries token := by
  induction h with
  | nil => exact absurd rfl hne
  | @cons token next final v rest hpage hmore hrest ih =>
    have hhere := hsame v List.mem_cons_self
    have hnext : next ≠ bot := by
      cases hrest with
      | nil => exact hfinal
      | cons => exact hmore (List.cons_ne_nil _ _)
    obtain ⟨hlt, hpos⟩ := hpage.countAbove_of_perm hhere hnext
    rw [List.length_cons]
    by_cases hlast : rest = []
    · rw [hlast, List.length_nil]
      omega
    · have := ih (fun v' hv' => hsame v' (List.mem_cons_of_mem _ hv')) hlast hfinal
      omega

theorem Walk.length_le (h : Walk key bot token visits final) (hsame : ∀ v ∈ visits, v.entries.Perm entries) :
    visits.length ≤ max 1 (countAbove key entries token) := by
  induction h with
  | nil => simp
  | @cons token next final v rest hpage hmore hrest ih =>
    have hhere := hsame v List.mem_cons_self
    have hrest' := ih fun v' hv' => hsame v' (List.mem_cons_of_mem _ hv')
    cases rest with
    | nil => simp
    | cons w rest =>
      have hnext := hmore (List.cons_ne_nil _ _)
      obtain ⟨hlt, hpos⟩ := hpage.countAbove_of_perm hhere hnext
      rw [List.length_cons]
      omega

end Unchanged

end Paging
