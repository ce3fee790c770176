import S3Gateway.Library.Machine
import Mathlib.Algebra.BigOperators.Group.Finset.Basic
import Mathlib.Algebra.Order.Group.Int
import Mathlib.Logic.Function.Basic

/-! # Threads over a shared state

Each thread owns a private state and moves by atomic steps on the shared one.  A schedule
lists which thread moves next, so a fact about every schedule is one about every
interleaving. -/

namespace Threads

open Machine

variable {ι σ π : Type}

structure System (ι σ π : Type) where
  shared : σ
  own : ι → π

variable [DecidableEq ι] {move : ι → σ → π → σ × π}

/-- One atomic step of thread `i`. -/
def step (move : ι → σ → π → σ × π) (s : System ι σ π) (i : ι) : System ι σ π where
  shared := (move i s.shared (s.own i)).1
  own := Function.update s.own i (move i s.shared (s.own i)).2

@[simp] theorem step_own_self (s : System ι σ π) (i : ι) :
    (step move s i).own i = (move i s.shared (s.own i)).2 :=
  Function.update_self ..

theorem step_own_of_ne {i j : ι} (h : j ≠ i) (s : System ι σ π) :
    (step move s i).own j = s.own j :=
  Function.update_of_ne h ..

def interleave (move : ι → σ → π → σ × π) (s : System ι σ π) (schedule : List ι) :
    System ι σ π :=
  after (step move) s schedule

theorem interleave_singleton (s : System ι σ π) (i : ι) : interleave move s [i] = step move s i := rfl

/-- What every single step keeps holds under every interleaving. -/
theorem interleave_induction {P : System ι σ π → Prop} {s : System ι σ π} (init : P s)
    (keep : ∀ t i, P t → P (step move t i)) (schedule : List ι) :
    P (interleave move s schedule) :=
  invariant (P := fun _ t => P t) init (fun _ i h => keep _ i h) schedule

/-- What every thread's steps keep, of the shared state and of its own, holds under every
    interleaving. -/
theorem interleave_invariant {I : σ → Prop} {J : ι → π → Prop} {s : System ι σ π}
    (keep : ∀ i shared own, I shared → J i own →
      I (move i shared own).1 ∧ J i (move i shared own).2)
    (hshared : I s.shared) (hown : ∀ i, J i (s.own i)) (schedule : List ι) :
    I (interleave move s schedule).shared ∧ ∀ i, J i ((interleave move s schedule).own i) := by
  refine invariant (P := fun _ (s : System ι σ π) => I s.shared ∧ ∀ i, J i (s.own i))
    ⟨hshared, hown⟩ ?_ schedule
  intro schedule i ⟨hshared, hown⟩
  obtain ⟨hshared', hown'⟩ := keep i _ _ hshared (hown i)
  refine ⟨hshared', ?_⟩
  intro j
  by_cases hj : j = i
  · subst hj
    rw [step_own_self]
    exact hown'
  · rw [step_own_of_ne hj]
    exact hown j

/-- A measure of the private state that each step of its thread brings down by one has run
    out after that many steps of the thread. -/
theorem interleave_progress {remaining : π → Nat} {s : System ι σ π}
    (hmove : ∀ i shared own, remaining (move i shared own).2 ≤ remaining own - 1) (i : ι)
    (schedule : List ι) :
    remaining ((interleave move s schedule).own i) ≤ remaining (s.own i) - schedule.count i := by
  refine invariant (P := fun schedule (t : System ι σ π) =>
    remaining (t.own i) ≤ remaining (s.own i) - schedule.count i) (by simp) ?_ schedule
  intro schedule j h
  rw [List.count_append, List.count_singleton]
  by_cases hj : i = j
  · subst hj
    have hstep := hmove i (after (step move) s schedule).shared
      ((after (step move) s schedule).own i)
    rw [step_own_self]
    simp only [beq_self_eq_true, if_true]
    omega
  · rw [step_own_of_ne hj]
    simp only [beq_iff_eq, Ne.symm hj, if_false]
    omega

/-! ## Balances

A quantity of which the shared state has one part and each thread another. -/

section

variable [Fintype ι] {f : σ → Int} {g : π → Int}

def total (f : σ → Int) (g : π → Int) (s : System ι σ π) : Int := f s.shared + ∑ i, g (s.own i)

/-- A step changes the whole by what it changes for its own thread. -/
theorem total_step (s : System ι σ π) (i : ι) :
    total f g (step move s i) + (f s.shared + g (s.own i)) =
      total f g s + (f (move i s.shared (s.own i)).1 + g (move i s.shared (s.own i)).2) := by
  have hrest : ∀ j ∈ Finset.univ.erase i, g ((step move s i).own j) = g (s.own j) := by
    intro j hj
    rw [step_own_of_ne (Finset.ne_of_mem_erase hj)]
  have hbefore := Finset.add_sum_erase Finset.univ (fun j => g (s.own j)) (Finset.mem_univ i)
  have hafter := Finset.add_sum_erase Finset.univ (fun j => g ((step move s i).own j))
    (Finset.mem_univ i)
  rw [Finset.sum_congr rfl hrest] at hafter
  simp only [step_own_self] at hafter
  have hshared : (step move s i).shared = (move i s.shared (s.own i)).1 := rfl
  simp only [total, hshared]
  omega

/-- What no step changes is what it was at the start. -/
theorem total_interleave {s : System ι σ π}
    (keep : ∀ i shared own,
      f (move i shared own).1 + g (move i shared own).2 = f shared + g own) (schedule : List ι) :
    total f g (interleave move s schedule) = total f g s := by
  apply interleave_induction (P := fun t => total f g t = total f g s) rfl
  intro t i h
  have hstep : total f g (step move t i) + (f t.shared + g (t.own i)) =
      total f g t + (f (move i t.shared (t.own i)).1 + g (move i t.shared (t.own i)).2) :=
    total_step t i
  have hkeep := keep i t.shared (t.own i)
  omega

theorem total_step_le (move : ι → σ → π → σ × π) {s : System ι σ π} {i : ι}
    (h : f (move i s.shared (s.own i)).1 + g (move i s.shared (s.own i)).2 ≤
      f s.shared + g (s.own i)) : total f g (step move s i) ≤ total f g s := by
  have hstep : total f g (step move s i) + (f s.shared + g (s.own i)) =
      total f g s + (f (move i s.shared (s.own i)).1 + g (move i s.shared (s.own i)).2) :=
    total_step s i
  omega

/-- What no step increases is never more than at the start. -/
theorem total_interleave_le {s : System ι σ π}
    (keep : ∀ i shared own,
      f (move i shared own).1 + g (move i shared own).2 ≤ f shared + g own) (schedule : List ι) :
    total f g (interleave move s schedule) ≤ total f g s := by
  apply interleave_induction (P := fun t => total f g t ≤ total f g s) (le_refl _)
  intro t i h
  exact (total_step_le move (keep i t.shared (t.own i))).trans h

end

end Threads
