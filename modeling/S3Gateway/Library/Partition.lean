import S3Gateway.Library.Interaction
import S3Gateway.Library.Threads

/-! # Programs that share a memory of cells

Programs run side by side, and their calls are answered by one memory.  A call may change some
cells; what it is answered and what it leaves in them depend on those cells and on some others
it looks at.  When some of the programs only ever touch certain cells and the rest never change
one of those, the rest might as well not be there (`interleave_purge`): whatever the schedule,
neither what the former see nor what they leave in those cells tells whether the latter ran. -/

namespace Partition

open Interaction Threads

variable {τ κ V ι ω ρ α : Type} {writes reads : ι → List κ}

structure Memory (V ω : Type) (writes reads : ι → List κ) where
  answer : ι → (κ → V) → ω × (κ → V)
  frame : ∀ i m k, k ∉ writes i → (answer i m).2 k = m k
  depends : ∀ i m m', (∀ k ∈ writes i ++ reads i, m k = m' k) →
    (answer i m).1 = (answer i m').1 ∧ ∀ k ∈ writes i, (answer i m).2 k = (answer i m').2 k

/-- A program under way: the calls it made, with their replies, and what is left of it. -/
structure Session (ι ω ρ α : Type) where
  log : List (ι × ω)
  rest : Prog ι ρ α

/-- One call of a program, whichever thread runs it; `seen` is what the program goes by of a
    reply. -/
def move (seen : ω → ρ) (mem : Memory V ω writes reads) (_ : τ) (m : κ → V) (s : Session ι ω ρ α) :
    (κ → V) × Session ι ω ρ α :=
  match s.rest with
  | .pure _ => (m, s)
  | .call i k => ((mem.answer i m).2, ⟨s.log ++ [(i, (mem.answer i m).1)], k (seen (mem.answer i m).1)⟩)

variable {seen : ω → ρ} {mem : Memory V ω writes reads} {P : ι → Prop} {s : Session ι ω ρ α} {m m' : κ → V} {t : τ}

/-- What all calls of a program satisfy, those that are left satisfy. -/
theorem move_eachCall (h : s.rest.EachCall P) : (move seen mem t m s).2.rest.EachCall P := by
  unfold move
  split
  · exact h
  · rename_i i k hrest
    rw [hrest] at h
    exact h.2 _

theorem move_outside {inside : κ → Prop} (h : s.rest.EachCall fun i => ∀ k ∈ writes i, ¬inside k) {k : κ} (hk : inside k) :
    (move seen mem t m s).1 k = m k := by
  unfold move
  split
  · rfl
  · rename_i i _ hrest
    rw [hrest] at h
    exact mem.frame _ _ _ fun hwritten => h.1 k hwritten hk

/-- A step within certain cells is the same whatever the others hold. -/
theorem move_inside {inside : κ → Prop} (h : s.rest.EachCall fun i => ∀ k ∈ writes i ++ reads i, inside k)
    (hm : ∀ k, inside k → m k = m' k) :
    (move seen mem t m s).2 = (move seen mem t m' s).2 ∧ ∀ k, inside k → (move seen mem t m s).1 k = (move seen mem t m' s).1 k := by
  unfold move
  split
  · exact ⟨rfl, hm⟩
  · rename_i i _ hrest
    rw [hrest] at h
    obtain ⟨hreply, hcells⟩ := mem.depends i m m' fun k hk => hm k (h.1 k hk)
    refine ⟨by rw [hreply], fun k hk => ?_⟩
    by_cases hwritten : k ∈ writes i
    · exact hcells k hwritten
    · show (mem.answer i m).2 k = (mem.answer i m').2 k
      rw [mem.frame i m k hwritten, mem.frame i m' k hwritten]
      exact hm k hk

variable [DecidableEq τ] (inside : κ → Prop) (member : τ → Bool)

/-- Two systems in which members see the same, the second without what the others did. -/
structure Agree (writes reads : ι → List κ) (x y : System τ (κ → V) (Session ι ω ρ α)) : Prop where
  cells : ∀ k, inside k → x.shared k = y.shared k
  own : ∀ t, member t = true → x.own t = y.own t
  within : ∀ t, member t = true → (x.own t).rest.EachCall fun i => ∀ k ∈ writes i ++ reads i, inside k
  apart : ∀ t, member t = false → (x.own t).rest.EachCall fun i => ∀ k ∈ writes i, ¬inside k

variable {inside member} {x y : System τ (κ → V) (Session ι ω ρ α)}

/-- The calls that are left after a step are some of those before. -/
theorem step_eachCall {P : ι → Prop} {t t' : τ} (h : (x.own t').rest.EachCall P) :
    ((step (move seen mem) x t).own t').rest.EachCall P := by
  by_cases ht : t' = t
  · subst ht
    rw [step_own_self]
    exact move_eachCall h
  · rw [step_own_of_ne ht]
    exact h

theorem Agree.step_other (h : Agree inside member writes reads x y) {t : τ} (ht : member t = false) :
    Agree inside member writes reads (step (move seen mem) x t) y where
  cells k hk := by
    rw [← h.cells k hk]
    exact move_outside (h.apart t ht) hk
  own t' ht' := by
    have hne : t' ≠ t := by
      rintro rfl
      rw [ht] at ht'
      cases ht'
    rw [step_own_of_ne hne]
    exact h.own t' ht'
  within t' ht' := step_eachCall (h.within t' ht')
  apart t' ht' := step_eachCall (h.apart t' ht')

theorem Agree.step_member (h : Agree inside member writes reads x y) {t : τ} (ht : member t = true) :
    Agree inside member writes reads (step (move seen mem) x t) (step (move seen mem) y t) := by
  have hmove : (move seen mem t x.shared (x.own t)).2 = (move seen mem t y.shared (x.own t)).2 ∧
      ∀ k, inside k → (move seen mem t x.shared (x.own t)).1 k = (move seen mem t y.shared (x.own t)).1 k :=
    move_inside (h.within t ht) h.cells
  rw [h.own t ht] at hmove
  refine ⟨?_, ?_, fun t' ht' => step_eachCall (h.within t' ht'), fun t' ht' => step_eachCall (h.apart t' ht')⟩
  · intro k hk
    show (move seen mem t x.shared (x.own t)).1 k = (move seen mem t y.shared (y.own t)).1 k
    rw [h.own t ht]
    exact hmove.2 k hk
  · intro t' ht'
    by_cases hsame : t' = t
    · subst hsame
      rw [step_own_self, step_own_self, h.own t' ht]
      exact hmove.1
    · rw [step_own_of_ne hsame, step_own_of_ne hsame]
      exact h.own t' ht'

/-- Under every schedule, members see what they would see alone, and leave what they would
    leave. -/
theorem Agree.interleave (h : Agree inside member writes reads x y) (schedule : List τ) :
    Agree inside member writes reads (interleave (move seen mem) x schedule)
      (interleave (move seen mem) y (schedule.filter member)) := by
  induction schedule generalizing x y with
  | nil => exact h
  | cons t schedule ih =>
    cases ht : member t with
    | true =>
      rw [List.filter_cons_of_pos ht]
      exact ih (h.step_member ht)
    | false =>
      rw [List.filter_cons_of_neg (by simp [ht])]
      exact ih (h.step_other ht)

theorem interleave_purge
    (hwithin : ∀ t, member t = true → (x.own t).rest.EachCall fun i => ∀ k ∈ writes i ++ reads i, inside k)
    (hapart : ∀ t, member t = false → (x.own t).rest.EachCall fun i => ∀ k ∈ writes i, ¬inside k) (schedule : List τ) :
    Agree inside member writes reads (Threads.interleave (move seen mem) x schedule)
      (Threads.interleave (move seen mem) x (schedule.filter member)) :=
  have hsame : Agree inside member writes reads x x := ⟨fun _ _ => rfl, fun _ _ => rfl, hwithin, hapart⟩
  hsame.interleave schedule

theorem interleave_untouched (h : ∀ t, (x.own t).rest.EachCall fun i => ∀ k ∈ writes i, ¬inside k)
    (schedule : List τ) {k : κ} (hk : inside k) :
    (Threads.interleave (move seen mem) x schedule).shared k = x.shared k := by
  have hnone : Agree inside (fun _ => false) writes reads (Threads.interleave (move seen mem) x schedule)
      (Threads.interleave (move seen mem) x (schedule.filter fun _ => false)) :=
    interleave_purge (fun _ ht => absurd ht Bool.false_ne_true) (fun t _ => h t) schedule
  rw [List.filter_false] at hnone
  exact hnone.cells k hk

end Partition
