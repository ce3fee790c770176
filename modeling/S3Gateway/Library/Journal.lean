import Mathlib.Algebra.BigOperators.Group.List.Basic
import Mathlib.Algebra.GroupWithZero.Nat

/-! # Journals

A journal lists events in the order they happened.  Some events earn credit and some spend it; a
journal is covered when at no moment more was spent than earned.  Some events are final; a journal
stops at them.  Both are kept up one event at a time. -/

namespace Journal

variable {α : Type}

/-! ## Credit -/

section Credit

variable (earn spend : α → Nat)

/-- At no moment more was spent than had been earned. -/
def Covered (events : List α) : Prop :=
  ∀ done, done <+: events → (done.map spend).sum ≤ (done.map earn).sum

variable {earn spend}

theorem covered_nil : Covered earn spend [] := by
  intro done hdone
  rw [List.prefix_nil.mp hdone]
  exact Nat.le_refl _

theorem Covered.total {events : List α} (h : Covered earn spend events) :
    (events.map spend).sum ≤ (events.map earn).sum :=
  h events (List.prefix_refl events)

/-- A further event may spend what is left and what it earns itself. -/
theorem Covered.concat {events : List α} {e : α} (h : Covered earn spend events)
    (he : (events.map spend).sum + spend e ≤ (events.map earn).sum + earn e) :
    Covered earn spend (events ++ [e]) := by
  intro done hdone
  rcases List.prefix_concat_iff.mp hdone with rfl | hbefore
  · simpa using he
  · exact h done hbefore

end Credit

/-! ## Final events -/

/-- Nothing happens after a final event. -/
def StopsAt (final : α → Prop) (events : List α) : Prop :=
  ∀ before e after, events = before ++ e :: after → final e → after = []

variable {final : α → Prop} {events : List α}

theorem stopsAt_of_none (h : ∀ e ∈ events, ¬final e) : StopsAt final events := by
  rintro before e after rfl he
  exact absurd he (h e (by simp))

theorem StopsAt.cons (h : StopsAt final events) {e : α} (he : ¬final e) : StopsAt final (e :: events) := by
  intro before x after heq hx
  cases before with
  | nil =>
    cases heq
    exact absurd hx he
  | cons b before =>
    cases heq
    exact h before x after rfl hx

/-- Any event may follow events that are not final. -/
theorem stopsAt_concat (h : ∀ e ∈ events, ¬final e) (e : α) : StopsAt final (events ++ [e]) := by
  intro before x after heq hx
  rcases List.eq_nil_or_concat after with rfl | ⟨front, last, rfl⟩
  · rfl
  · -- what has something after it is one of the earlier events
    rw [List.concat_eq_append, ← List.cons_append, ← List.append_assoc] at heq
    have hevents : events = before ++ x :: front := (List.append_inj' heq rfl).1
    exact absurd hx (h x (by simp [hevents]))

theorem stopsAt_singleton (e : α) : StopsAt final [e] :=
  stopsAt_concat (fun _ hmem => absurd hmem List.not_mem_nil) e

end Journal
