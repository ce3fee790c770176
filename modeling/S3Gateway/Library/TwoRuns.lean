import Mathlib.Data.List.Forall2
import S3Gateway.Library.Interaction

/-! # Two runs side by side

What two computations have to do with each other, step by step: fallible ones that fail
alike or succeed with related values, and programs that make the same calls and, whatever
the replies, end with related results, or that make different calls and end with related
results when the replies are. -/

namespace TwoRuns

open Interaction

/-! ## Fallible computations -/

section Outcomes

variable {ε α β γ δ : Type}

/-- Both fail, with related errors, or both succeed, with related values. -/
inductive Outcomes (E : ε → ε → Prop) (R : α → β → Prop) : Except ε α → Except ε β → Prop where
  | error {e e' : ε} (h : E e e') : Outcomes E R (.error e) (.error e')
  | ok {a : α} {b : β} (h : R a b) : Outcomes E R (.ok a) (.ok b)

variable {E : ε → ε → Prop} {R : α → β → Prop} {S : γ → δ → Prop}

theorem Outcomes.refl [Std.Refl E] (x : Except ε α) : Outcomes E Eq x x := by
  cases x with
  | error e => exact .error (Std.Refl.refl e)
  | ok a => exact .ok rfl

theorem Outcomes.bind {x : Except ε α} {y : Except ε β} {f : α → Except ε γ} {g : β → Except ε δ}
    (h : Outcomes E R x y) (hf : ∀ a b, R a b → Outcomes E S (f a) (g b)) :
    Outcomes E S (x >>= f) (y >>= g) := by
  cases h with
  | error h => exact .error h
  | ok h => exact hf _ _ h

instance [Std.Refl E] : Std.Refl (Outcomes E (Eq (α := α))) := ⟨Outcomes.refl⟩

theorem Outcomes.step [Std.Refl E] {x : Except ε α} {f : α → Except ε γ} {g : α → Except ε δ}
    (hf : ∀ a, x = .ok a → Outcomes E S (f a) (g a)) : Outcomes E S (x >>= f) (x >>= g) := by
  cases x with
  | error e => exact .error (Std.Refl.refl e)
  | ok a => exact hf a rfl

end Outcomes

/-! ## Programs -/

section Runs

variable {ι ρ α β γ δ : Type}

/-- The same calls, and related results whatever the replies. -/
inductive Runs (R : α → β → Prop) : Prog ι ρ α → Prog ι ρ β → Prop where
  | pure {a : α} {b : β} (h : R a b) : Runs R (.pure a) (.pure b)
  | call (i : ι) {k : ρ → Prog ι ρ α} {k' : ρ → Prog ι ρ β} (h : ∀ r, Runs R (k r) (k' r)) :
      Runs R (.call i k) (.call i k')

variable {R : α → β → Prop} {S : γ → δ → Prop}

theorem Runs.refl {R : α → α → Prop} [Std.Refl R] (p : Prog ι ρ α) : Runs R p p := by
  induction p with
  | pure a => exact .pure (Std.Refl.refl a)
  | call i k ih => exact .call i ih

/-- A reading of the results that does not tell related ones apart does not tell the
    programs apart. -/
theorem Runs.map_eq {p : Prog ι ρ α} {q : Prog ι ρ β} (h : Runs R p q) {f : α → γ} {g : β → γ}
    (hf : ∀ a b, R a b → f a = g b) : (p.bind fun a => .pure (f a)) = q.bind fun b => .pure (g b) := by
  induction h with
  | pure h => exact congrArg Prog.pure (hf _ _ h)
  | call i h ih => exact congrArg (Prog.call i) (funext ih)

end Runs

/-! ## Runs that ask for different things -/

section Alike

variable {ι ρ α β : Type}

/-- Replies that `A` relates, whatever they are asked for, lead to related results. -/
inductive Alike (A : ρ → ρ → Prop) (R : α → β → Prop) : Prog ι ρ α → Prog ι ρ β → Prop where
  | pure {a : α} {b : β} (h : R a b) : Alike A R (.pure a) (.pure b)
  | call (i j : ι) {k : ρ → Prog ι ρ α} {k' : ρ → Prog ι ρ β}
      (h : ∀ r r', A r r' → Alike A R (k r) (k' r')) : Alike A R (.call i k) (.call j k')

variable {A : ρ → ρ → Prop}

theorem Alike.answer_eq {p q : Prog ι ρ α} (h : Alike A Eq p q) {rs rs' : List ρ} (hrs : List.Forall₂ A rs rs') :
    (p.answer rs).map (·.1) = (q.answer rs').map (·.1) := by
  induction h generalizing rs rs' with
  | pure h => exact congrArg some h
  | call i j _ ih =>
    cases hrs with
    | nil => rfl
    | cons hr hrs =>
      have hrest := ih _ _ hr hrs
      simp only [Prog.answer, Option.map_map]
      exact hrest

end Alike

/-! ## Replies that are not told apart -/

section Blind

variable {ι ρ κ τ α β : Type} {A : ι → ρ → ρ → Prop}

/-- Replies to a call that `A` relates are continued alike. -/
def Blind (A : ι → ρ → ρ → Prop) (p : Prog ι ρ α) : Prop :=
  p.EachStep fun i k => ∀ r r', A i r r' → k r = k r'

theorem Blind.bind {p : Prog ι ρ α} {f : α → Prog ι ρ β} (hp : Blind A p) (hf : ∀ a, Blind A (f a)) :
    Blind A (p.bind f) :=
  Prog.EachStep.bind hp (fun _ _ hk r r' h => congrArg (Prog.bind · f) (hk r r' h)) hf

theorem Blind.subst {f : κ → Prog ι ρ τ} (hf : ∀ i, Blind A (f i)) (p : Prog κ τ α) : Blind A (p.subst f) := by
  induction p with
  | pure a => trivial
  | call i k ih => exact (hf i).bind ih

/-- Runs with replies that are not told apart come to the same result, and use as many. -/
theorem Blind.answer_eq {p : Prog ι ρ α} (hp : Blind A p) {B : ρ → ρ → Prop}
    (hB : ∀ i, p.Issues i → ∀ r r', B r r' → A i r r') {rs rs' : List ρ} (h : List.Forall₂ B rs rs') {γ : Type}
    {view : ρ → γ} (hview : ∀ r r', B r r' → view r = view r') :
    (p.answer rs).map (fun (a, used) => (a, used.map view)) =
      (p.answer rs').map fun (a, used) => (a, used.map view) := by
  induction p generalizing rs rs' with
  | pure a => rfl
  | call i k ih =>
    cases h with
    | nil => rfl
    | @cons r r' rs rs' hr h =>
      have hk : k r = k r' := hp.1 r r' (hB i (.here i k) r r' hr)
      have hrest := ih r (hp.2 r) (fun j hj => hB j (.later i k r hj)) h
      simp only [Prog.answer, Option.map_map, ← hk]
      -- the first replies look alike, and so do the rest
      calc ((k r).answer rs).map (fun x => (x.1, view r :: x.2.map view))
          = (((k r).answer rs).map fun x => (x.1, x.2.map view)).map (fun x => (x.1, view r :: x.2)) := by
            rw [Option.map_map]
            rfl
        _ = (((k r).answer rs').map fun x => (x.1, x.2.map view)).map (fun x => (x.1, view r' :: x.2)) := by
            rw [hrest, hview r r' hr]
        _ = ((k r).answer rs').map (fun x => (x.1, view r' :: x.2.map view)) := by
            rw [Option.map_map]
            rfl

end Blind

end TwoRuns
