import Mathlib.Data.List.Basic

/-! # Computations that may fail

Inversion rules for `Except`: what a successful sequence of fallible steps says
of each step. -/

namespace Fallible

variable {ε α β : Type}

/-- A sequence succeeds exactly when its first step does and the rest succeeds on
    its value. -/
theorem bind_eq_ok {x : Except ε α} {f : α → Except ε β} {b : β} :
    (x >>= f) = .ok b ↔ ∃ a, x = .ok a ∧ f a = .ok b := by
  cases x with
  | error e => simp [bind, Except.bind]
  | ok a => simp [bind, Except.bind]

/-- An error that no step fails with is none of the sequence. -/
theorem bind_ne_error {x : Except ε α} {f : α → Except ε β} {e : ε} (hx : x ≠ .error e)
    (hf : ∀ a, x = .ok a → f a ≠ .error e) : (x >>= f) ≠ .error e := by
  cases x with
  | error e' =>
    intro h
    cases h
    exact hx rfl
  | ok a => exact hf a rfl

/-- The values of successful steps are the values of the list. -/
theorem mem_mapM {f : α → Except ε β} {l : List α} {bs : List β} (h : l.mapM f = .ok bs) {b : β} :
    b ∈ bs ↔ ∃ a ∈ l, f a = .ok b := by
  induction l generalizing bs with
  | nil =>
    cases h
    simp
  | cons a l ih =>
    rw [List.mapM_cons] at h
    obtain ⟨b', hb', h⟩ := bind_eq_ok.mp h
    obtain ⟨bs', hbs', h⟩ := bind_eq_ok.mp h
    cases h
    simp [ih hbs', hb', eq_comm]

/-- What every step keeps, the list of values keeps. -/
theorem map_mapM {γ : Type} {f : α → Except ε β} {l : List α} {bs : List β} (h : l.mapM f = .ok bs) {g : β → γ} {g' : α → γ}
    (hstep : ∀ a b, f a = .ok b → g b = g' a) : bs.map g = l.map g' := by
  induction l generalizing bs with
  | nil =>
    cases h
    rfl
  | cons a l ih =>
    rw [List.mapM_cons] at h
    obtain ⟨b', hb', h⟩ := bind_eq_ok.mp h
    obtain ⟨bs', hbs', h⟩ := bind_eq_ok.mp h
    cases h
    rw [List.map_cons, List.map_cons, ih hbs', hstep a b' hb']

theorem exists_mapM {f : α → Except ε β} {l : List α} (h : ∀ a ∈ l, ∃ b, f a = .ok b) : ∃ bs, l.mapM f = .ok bs := by
  induction l with
  | nil => exact ⟨[], rfl⟩
  | cons a l ih =>
    obtain ⟨b, hb⟩ := h a List.mem_cons_self
    obtain ⟨bs, hbs⟩ := ih fun a' ha' => h a' (List.mem_cons_of_mem _ ha')
    refine ⟨b :: bs, ?_⟩
    rw [List.mapM_cons, hb, hbs]
    rfl

variable {δ : Type}

@[simp] theorem mapError_eq_ok {x : Except ε α} {f : ε → δ} {a : α} :
    x.mapError f = .ok a ↔ x = .ok a := by
  cases x with
  | error e => simp [Except.mapError]
  | ok b => simp [Except.mapError]

/-- An optional value, or the error for its absence. -/
def orError (x : Option α) (e : ε) : Except ε α := x.elim (.error e) .ok

@[simp] theorem orError_eq_ok {x : Option α} {e : ε} {a : α} : orError x e = .ok a ↔ x = some a := by
  cases x with
  | none => simp [orError]
  | some b => simp [orError]

theorem orError_eq_error {x : Option α} {e : ε} (h : ∀ a, x ≠ some a) : orError x e = .error e := by
  rw [Option.eq_none_iff_forall_ne_some.mpr h]
  rfl

/-- Stops with `e` unless the condition holds. -/
def require (c : Prop) [Decidable c] (e : ε) : Except ε Unit := if c then .ok () else .error e

@[simp] theorem require_eq_ok {c : Prop} [Decidable c] {e : ε} {u : Unit} :
    require c e = .ok u ↔ c := by
  unfold require
  by_cases h : c
  · simp [h]
  · simp [h]

def stopOn (x : Option δ) (f : δ → ε) : Except ε Unit := x.elim (.ok ()) fun e => .error (f e)

@[simp] theorem stopOn_eq_ok {x : Option δ} {f : δ → ε} {u : Unit} : stopOn x f = .ok u ↔ x = none := by
  cases x with
  | none => simp [stopOn]
  | some e => simp [stopOn]

def errorOf : Except ε α → Option ε
  | .error e => some e
  | .ok _ => none

@[simp] theorem errorOf_eq_some {x : Except ε α} {e : ε} : errorOf x = some e ↔ x = .error e := by
  cases x with
  | error e' => simp [errorOf]
  | ok a => simp [errorOf]

/-! ## Errors of a kind -/

/-- Whatever error it is, it is of the kind. -/
def FailsWith (P : ε → Prop) (x : Except ε α) : Prop := ∀ e, x = .error e → P e

variable {P : ε → Prop}

theorem failsWith_ok (a : α) : FailsWith P (.ok a : Except ε α) := nofun

theorem failsWith_error {e : ε} (h : P e) : FailsWith P (.error e : Except ε α) := by
  intro e' he'
  cases he'
  exact h

theorem FailsWith.bind {x : Except ε α} {f : α → Except ε β} (hx : FailsWith P x) (hf : ∀ a, FailsWith P (f a)) :
    FailsWith P (x >>= f) := by
  cases x with
  | error e => exact failsWith_error (hx e rfl)
  | ok a => exact hf a

theorem FailsWith.map {x : Except ε α} (hx : FailsWith P x) (f : α → β) : FailsWith P (x.map f) := by
  cases x with
  | error e => exact failsWith_error (hx e rfl)
  | ok a => exact failsWith_ok (f a)

theorem FailsWith.mapM {f : α → Except ε β} (hf : ∀ a, FailsWith P (f a)) (l : List α) : FailsWith P (l.mapM f) := by
  induction l with
  | nil => exact failsWith_ok []
  | cons a l ih =>
    rw [List.mapM_cons]
    exact (hf a).bind fun b => ih.bind fun bs => failsWith_ok (b :: bs)

theorem failsWith_require {c : Prop} [Decidable c] {e : ε} (h : P e) : FailsWith P (require c e) := by
  unfold require
  split
  · exact failsWith_ok ()
  · exact failsWith_error h

theorem failsWith_orError {x : Option α} {e : ε} (h : P e) : FailsWith P (orError x e) := by
  cases x with
  | none => exact failsWith_error h
  | some a => exact failsWith_ok a

theorem failsWith_stopOn {x : Option δ} {f : δ → ε} (h : ∀ e, P (f e)) : FailsWith P (stopOn x f) := by
  cases x with
  | none => exact failsWith_ok ()
  | some e => exact failsWith_error (h e)

theorem FailsWith.mapError {Q : δ → Prop} {x : Except ε α} {f : ε → δ} (hx : FailsWith P x) (hf : ∀ e, P e → Q (f e)) :
    FailsWith Q (x.mapError f) := by
  cases x with
  | error e => exact failsWith_error (hf e (hx e rfl))
  | ok a => exact failsWith_ok a

theorem failsWith_elim {x : Option α} {e : ε} (h : P e) : FailsWith P (x.elim (.error e) .ok) := by
  cases x with
  | none => exact failsWith_error h
  | some a => exact failsWith_ok a

end Fallible
