import Mathlib.Data.List.Induction

/-! # Machines driven by a list of inputs

A machine is a step function.  `after` is the state some inputs lead to, `log` what the
steps emitted on the way, and `invariant` the induction rule for facts that tie a state to
the inputs that led to it. -/

namespace Machine

variable {σ ι ο : Type}

def after (step : σ → ι → σ) (s : σ) (inputs : List ι) : σ := inputs.foldl step s

def log (step : σ → ι → σ) (emit : σ → ι → Option ο) : σ → List ι → List ο
  | _, [] => []
  | s, i :: inputs => (emit s i).toList ++ log step emit (step s i) inputs

variable {step : σ → ι → σ} {emit : σ → ι → Option ο} {s : σ}

@[simp] theorem after_nil : after step s [] = s := rfl

@[simp] theorem after_cons (i : ι) (inputs : List ι) :
    after step s (i :: inputs) = after step (step s i) inputs := rfl

@[simp] theorem after_append (first second : List ι) :
    after step s (first ++ second) = after step (after step s first) second :=
  List.foldl_append

theorem log_append (first second : List ι) :
    log step emit s (first ++ second) =
      log step emit s first ++ log step emit (after step s first) second := by
  induction first generalizing s with
  | nil => rfl
  | cons i first ih => simp only [List.cons_append, log, ih, List.append_assoc, after_cons]

@[simp] theorem log_snoc (inputs : List ι) (i : ι) :
    log step emit s (inputs ++ [i]) =
      log step emit s inputs ++ (emit (after step s inputs) i).toList := by
  rw [log_append]
  simp [log]

/-- The first inputs of an endless sequence, from its second on. -/
theorem map_range_succ (inputs : Nat → ι) (k : Nat) :
    (List.range (k + 1)).map inputs = inputs 0 :: (List.range k).map fun i => inputs (i + 1) := by
  rw [List.range_succ_eq_map, List.map_cons, List.map_map]
  rfl

/-- A fact about a state and the inputs that led to it holds of every run when it holds of
    the empty one and every further input keeps it. -/
theorem invariant {P : List ι → σ → Prop} (init : P [] s)
    (keep : ∀ inputs i, P inputs (after step s inputs) →
      P (inputs ++ [i]) (step (after step s inputs) i)) (inputs : List ι) :
    P inputs (after step s inputs) := by
  induction inputs using List.reverseRecOn with
  | nil => exact init
  | append_singleton inputs i ih =>
    rw [after_append]
    exact keep inputs i ih

end Machine
