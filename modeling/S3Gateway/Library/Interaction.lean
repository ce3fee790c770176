import Mathlib.Logic.Basic

/-! # Programs that call out

A program either returns or makes a call and continues with whatever reply comes
back.  `Issues p i` says that some choice of replies makes `p` issue the call `i`;
`EachCall` is the rule for bounding all of them.  `run` interprets the calls by a
handler over a state. -/

namespace Interaction

inductive Prog (ι ρ α : Type) where
  | pure (a : α)
  | call (i : ι) (k : ρ → Prog ι ρ α)

namespace Prog

variable {ι ρ α β σ : Type}

def bind : Prog ι ρ α → (α → Prog ι ρ β) → Prog ι ρ β
  | pure a, f => f a
  | call i k, f => call i fun r => (k r).bind f

instance : Monad (Prog ι ρ) where
  pure := Prog.pure
  bind := Prog.bind

/-- Makes one call and returns its reply. -/
def request (i : ι) : Prog ι ρ ρ := call i pure

@[simp] theorem bind_pure_left (a : α) (f : α → Prog ι ρ β) : (Prog.pure a).bind f = f a := rfl

@[simp] theorem bind_call (i : ι) (k : ρ → Prog ι ρ α) (f : α → Prog ι ρ β) :
    (call i k).bind f = call i fun r => (k r).bind f := rfl

/-! ## Which calls a program can make -/

/-- Some run of the program issues the call. -/
inductive Issues : Prog ι ρ α → ι → Prop where
  | here (i : ι) (k : ρ → Prog ι ρ α) : Issues (call i k) i
  | later (i : ι) (k : ρ → Prog ι ρ α) (r : ρ) {j : ι} (h : Issues (k r) j) : Issues (call i k) j

/-- Every call of every run satisfies `P`. -/
def EachCall (P : ι → Prop) : Prog ι ρ α → Prop
  | pure _ => True
  | call i k => P i ∧ ∀ r, (k r).EachCall P

/-- The call the program makes before any reply. -/
def firstCall : Prog ι ρ α → Option ι
  | pure _ => none
  | call i _ => some i

theorem issues_of_firstCall {p : Prog ι ρ α} {i : ι} (h : p.firstCall = some i) : p.Issues i := by
  cases p with
  | pure a => cases h
  | call j k =>
    cases h
    exact .here _ k

theorem eachCall_iff {P : ι → Prop} {p : Prog ι ρ α} : p.EachCall P ↔ ∀ i, p.Issues i → P i := by
  induction p with
  | pure a =>
    refine ⟨fun _ i h => ?_, fun _ => trivial⟩
    cases h
  | call i k ih =>
    constructor
    · rintro ⟨hi, hk⟩ j h
      cases h with
      | here => exact hi
      | later _ _ r h => exact (ih r).mp (hk r) j h
    · intro h
      refine ⟨h i (.here i k), fun r => (ih r).mpr fun j hj => h j (.later i k r hj)⟩

@[simp] theorem eachCall_pure (P : ι → Prop) (a : α) : (pure a : Prog ι ρ α).EachCall P := trivial

theorem EachCall.bind {P : ι → Prop} {p : Prog ι ρ α} {f : α → Prog ι ρ β} (hp : p.EachCall P)
    (hf : ∀ a, (f a).EachCall P) : (p.bind f).EachCall P := by
  induction p with
  | pure a => exact hf a
  | call i k ih => exact ⟨hp.1, fun r => ih r (hp.2 r)⟩

/-- Every call of every run, with what it is continued by, satisfies `P`. -/
def EachStep (P : ι → (ρ → Prog ι ρ α) → Prop) : Prog ι ρ α → Prop
  | pure _ => True
  | call i k => P i k ∧ ∀ r, (k r).EachStep P

theorem eachStep_of_silent {P : ι → (ρ → Prog ι ρ α) → Prop} {p : Prog ι ρ α} (h : p.EachCall fun _ => False) :
    p.EachStep P := by
  cases p with
  | pure a => trivial
  | call i k => exact h.1.elim

theorem EachStep.bind {P : ι → (ρ → Prog ι ρ α) → Prop} {Q : ι → (ρ → Prog ι ρ β) → Prop} {p : Prog ι ρ α}
    {f : α → Prog ι ρ β} (hp : p.EachStep P) (hstep : ∀ i k, P i k → Q i fun r => (k r).bind f)
    (hf : ∀ a, (f a).EachStep Q) : (p.bind f).EachStep Q := by
  induction p with
  | pure a => exact hf a
  | call i k ih => exact ⟨hstep i k hp.1, fun r => ih r (hp.2 r)⟩

/-! ## Runs given by their replies -/

/-- The result of the run with the given replies and those it used; none if it needs more. -/
def answer : Prog ι ρ α → List ρ → Option (α × List ρ)
  | pure a, _ => some (a, [])
  | call _ _, [] => none
  | call _ k, r :: rs => ((k r).answer rs).map fun (a, used) => (a, r :: used)

/-- Replies that lead to a call, and what it is continued by. -/
inductive Reaches : Prog ι ρ α → List ρ → ι → (ρ → Prog ι ρ α) → Prop where
  | here (i : ι) (k : ρ → Prog ι ρ α) : Reaches (call i k) [] i k
  | later (i : ι) (k : ρ → Prog ι ρ α) (r : ρ) {rs : List ρ} {j : ι} {k' : ρ → Prog ι ρ α}
      (h : Reaches (k r) rs j k') : Reaches (call i k) (r :: rs) j k'

theorem exists_reaches {p : Prog ι ρ α} {i : ι} (h : p.Issues i) : ∃ rs k, p.Reaches rs i k := by
  induction h with
  | here i k => exact ⟨[], k, .here i k⟩
  | later i k r _ ih =>
    obtain ⟨rs, k', hreaches⟩ := ih
    exact ⟨r :: rs, k', .later i k r hreaches⟩

theorem Reaches.step {P : ι → (ρ → Prog ι ρ α) → Prop} {p : Prog ι ρ α} {rs : List ρ} {i : ι}
    {k : ρ → Prog ι ρ α} (h : p.Reaches rs i k) (hp : p.EachStep P) : P i k := by
  induction h with
  | here i k => exact hp.1
  | later i k r _ ih => exact ih (hp.2 r)

theorem Reaches.answer {p : Prog ι ρ α} {rs : List ρ} {i : ι} {k : ρ → Prog ι ρ α} (h : p.Reaches rs i k)
    {r : ρ} {a : α} (hr : k r = .pure a) : p.answer (rs ++ [r]) = some (a, rs ++ [r]) := by
  induction h with
  | here i k =>
    rw [List.nil_append, Prog.answer, hr]
    rfl
  | later i k r' _ ih =>
    rw [List.cons_append, Prog.answer, ih hr]
    rfl

theorem answer_map (p : Prog ι ρ α) (f : α → β) (rs : List ρ) :
    (p.bind fun a => pure (f a)).answer rs = (p.answer rs).map fun (a, used) => (f a, used) := by
  induction p generalizing rs with
  | pure a => rfl
  | call i k ih =>
    cases rs with
    | nil => rfl
    | cons r rs =>
      rw [bind_call, answer, answer, ih, Option.map_map, Option.map_map]
      rfl

/-! ## Answering calls by programs -/

variable {κ τ : Type}

/-- Runs a program for each call; its result is the reply. -/
def subst (f : ι → Prog κ τ ρ) : Prog ι ρ α → Prog κ τ α
  | pure a => pure a
  | call i k => (f i).bind fun r => (k r).subst f

theorem EachCall.subst {P : κ → Prop} {f : ι → Prog κ τ ρ} (hf : ∀ i, (f i).EachCall P)
    (p : Prog ι ρ α) : (p.subst f).EachCall P := by
  induction p with
  | pure a => trivial
  | call i k ih => exact (hf i).bind ih

/-! ## Running against a handler -/

/-- Answers each call by the handler, threading its state. -/
def run (handle : σ → ι → ρ × σ) : Prog ι ρ α → σ → α × σ
  | pure a, s => (a, s)
  | call i k, s => (k (handle s i).1).run handle (handle s i).2

end Prog

end Interaction
