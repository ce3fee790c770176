import S3Gateway.Library.Threads
import S3Gateway.S3gw.Breaker
import Mathlib.Algebra.BigOperators.Ring.Finset
import Mathlib.Algebra.Order.BigOperators.Group.Finset

/-! # Attempts behind a breaker

`breakerMiddleware` under any number of requests at once.  A request makes its attempts one
after the other; each asks `Allow`, goes to the network if admitted, and is reported unless
the client abandoned it.  Every reading of the clock is a further one of `clock`.

What the breaker does to the traffic is told by two balances.  Failures reported plus
failures still to come never grow, so a breaker that opened has seen `n` of them.  And
while it is not closed, every attempt on its way has paid a cooldown of waiting. -/

namespace S3Gateway.S3gw

open Go Threads BreakerState

/-! ## Outcomes -/

/-- The error of an attempt, by what `errors.Is` and `errors.AsType` find in it. -/
structure AttemptError where
  canceled : Bool := false
  deadlineExceeded : Bool := false
  /-- the status a `ResponseError` carries -/
  response : Option Int := none
deriving DecidableEq

structure AttemptOutcome where
  /-- the status of the raw response, when there is an HTTP one -/
  raw : Option Int
  err : Option AttemptError
deriving DecidableEq

/-- `classifyAttempt(raw, err)`; `none` is not reported. -/
def classifyAttempt (o : AttemptOutcome) : Option Bool :=
  if o.err.any (·.canceled) then none
  else if o.err.any (·.deadlineExceeded) then some false
  else
    match o.raw.filter (100 ≤ ·) with
    | some status => some (status < 500)
    | none =>
      match o.err with
      | none => some true
      | some e =>
        match e.response.filter (100 ≤ ·) with
        | some status => some (status < 500)
        | none => some false

/-- The backend was not reached, did not answer in time or answered with a 5xx. -/
def AttemptOutcome.fails (o : AttemptOutcome) : Bool := classifyAttempt o == some false

/-! ## Steps -/

/-- Where a request is, with the outcomes its further attempts would have. -/
inductive AttemptPhase where
  | allow (attempts : List AttemptOutcome)
  | send (o : AttemptOutcome) (rest : List AttemptOutcome)
  | report (ok : Bool) (rest : List AttemptOutcome)
  /-- the breaker was open; `BreakerOpen` is not retried -/
  | refused
  | finished
deriving DecidableEq

structure Guarded where
  breaker : ConsecutiveFailures
  /-- how often the clock was read -/
  tick : Nat
  /-- how many attempts went to the network -/
  sent : Nat
  /-- how many failures were reported -/
  failed : Nat

def Guarded.move (clock : Nat → Time) (g : Guarded) : AttemptPhase → Guarded × AttemptPhase
  | .allow [] => (g, .finished)
  | .allow (o :: rest) =>
    let (breaker, admitted) := g.breaker.allow (clock g.tick) (clock (g.tick + 1))
    ({ g with breaker, tick := g.tick + 2 }, if admitted then .send o rest else .refused)
  | .send o rest =>
    ({ g with sent := g.sent + 1 },
      match classifyAttempt o with
      | some ok => .report ok rest
      | none => .allow rest)
  | .report ok rest =>
    ({ g with
        breaker := g.breaker.report ok (clock g.tick)
        tick := g.tick + 1
        failed := if ok then g.failed else g.failed + 1 },
      .allow rest)
  | .refused => (g, .refused)
  | .finished => (g, .finished)

/-- What one step can do. -/
inductive Guarded.Moved (clock : Nat → Time) (g : Guarded) :
    AttemptPhase → Guarded → AttemptPhase → Prop where
  | ended : Moved clock g (.allow []) g .finished
  | admitted {o rest} (h : (g.breaker.allow (clock g.tick) (clock (g.tick + 1))).2 = true) :
      Moved clock g (.allow (o :: rest))
        { g with
          breaker := g.breaker.step (.allow (clock g.tick) (clock (g.tick + 1)))
          tick := g.tick + 2 } (.send o rest)
  | refused {o rest} (h : (g.breaker.allow (clock g.tick) (clock (g.tick + 1))).2 = false) :
      Moved clock g (.allow (o :: rest))
        { g with
          breaker := g.breaker.step (.allow (clock g.tick) (clock (g.tick + 1)))
          tick := g.tick + 2 } .refused
  | answered {o rest ok} (h : classifyAttempt o = some ok) :
      Moved clock g (.send o rest) { g with sent := g.sent + 1 } (.report ok rest)
  | abandoned {o rest} (h : classifyAttempt o = none) :
      Moved clock g (.send o rest) { g with sent := g.sent + 1 } (.allow rest)
  | reported {ok rest} :
      Moved clock g (.report ok rest)
        { g with
          breaker := g.breaker.step (.report ok (clock g.tick))
          tick := g.tick + 1
          failed := if ok then g.failed else g.failed + 1 } (.allow rest)
  | wasRefused : Moved clock g .refused g .refused
  | wasFinished : Moved clock g .finished g .finished

theorem Guarded.move_moved (clock : Nat → Time) (g : Guarded) (phase : AttemptPhase) :
    Guarded.Moved clock g phase (g.move clock phase).1 (g.move clock phase).2 := by
  cases phase with
  | allow attempts =>
    cases attempts with
    | nil => exact .ended
    | cons o rest =>
      cases h : (g.breaker.allow (clock g.tick) (clock (g.tick + 1))).2 with
      | true =>
        simp only [move, h, if_true]
        exact .admitted h
      | false =>
        simp only [move, h, Bool.false_eq_true, if_false]
        exact .refused h
  | send o rest =>
    cases h : classifyAttempt o with
    | none =>
      simp only [move, h]
      exact .abandoned h
    | some ok =>
      simp only [move, h]
      exact .answered h
  | report ok rest => exact .reported
  | refused => exact .wasRefused
  | finished => exact .wasFinished

/-! ## Runs -/

section

variable {ι : Type} [DecidableEq ι] (n cooldown : Int) (clock : Nat → Time)
  (attempts : ι → List AttemptOutcome)

/-- A new breaker and the requests behind it, after a schedule of their steps. -/
def concurrentAttempts (schedule : List ι) : System ι Guarded AttemptPhase :=
  interleave (fun _ g phase => g.move clock phase)
    ⟨⟨newConsecutiveFailures n cooldown, 0, 0, 0⟩, fun i => .allow (attempts i)⟩ schedule

end

/-! ## How many requests it takes to open the breaker -/

/-- The breaker has seen the failures it counts, and all `n` once it is not closed. -/
structure Guarded.Tallied (n : Int) (g : Guarded) : Prop where
  threshold : g.breaker.n = max n 1
  counting : g.breaker.state = breakerClosed → g.breaker.failures ≤ g.failed
  opened : g.breaker.state ≠ breakerClosed → max n 1 ≤ g.failed

theorem tallied_step {n : Int} {g : Guarded} (h : g.Tallied n) (c : ConsecutiveFailures.Call)
    (tick sent : Nat) {failed : Nat} (hfailed : g.failed + (if c.fails then 1 else 0) ≤ failed) :
    Guarded.Tallied n ⟨g.breaker.step c, tick, sent, failed⟩ := by
  have hthreshold := (ConsecutiveFailures.step_settings g.breaker c).1.trans h.threshold
  have hmoves := ConsecutiveFailures.step_moves g.breaker c
  have hcounting := h.counting
  have hopened := h.opened
  have hn := h.threshold
  generalize g.breaker.step c = b' at hmoves hthreshold ⊢
  -- by what a call of the breaker can do, once for the counter and once for the opening
  refine ⟨hthreshold, ?_, ?_⟩
  · intro hclosed
    cases hmoves with
    | passed hstate => grind
    | refused _ hstate => grind
    | probed _ _ => grind
    | closed => grind
    | counted hstate _ => grind [ConsecutiveFailures.Call.fails]
    | opened _ => grind [ConsecutiveFailures.opened]
    | ignored hstate => grind
  · intro hnot
    cases hmoves with
    | passed hstate => grind
    | refused _ hstate => grind
    | probed _ hstate => grind
    | closed => grind
    | counted hstate _ => grind
    | opened hstate => grind [ConsecutiveFailures.Call.fails]
    | ignored hstate => grind

theorem moved_tallied {n : Int} {clock : Nat → Time} {g g' : Guarded} {phase phase' : AttemptPhase}
    (hmoved : Guarded.Moved clock g phase g' phase') (h : g.Tallied n) : g'.Tallied n := by
  cases hmoved with
  | admitted | refused => exact tallied_step h _ _ _ (Nat.le_refl _)
  | @reported ok rest =>
    apply tallied_step h
    cases ok <;> simp [ConsecutiveFailures.Call.fails]
  | ended | answered | abandoned | wasRefused | wasFinished => exact ⟨h.threshold, h.counting, h.opened⟩

theorem start_tallied (n cooldown : Int) :
    Guarded.Tallied n ⟨newConsecutiveFailures n cooldown, 0, 0, 0⟩ where
  threshold := by
    simp only [newConsecutiveFailures]
    split <;> omega
  counting _ := Int.le_refl 0
  opened h := absurd rfl h

theorem moved_not_refused {clock : Nat → Time} {g g' : Guarded} {phase phase' : AttemptPhase}
    (hmoved : Guarded.Moved clock g phase g' phase') (hclosed : g.breaker.state = breakerClosed)
    (h : phase ≠ .refused) : phase' ≠ .refused := by
  cases hmoved with
  | refused hallow => simp [ConsecutiveFailures.allow, hclosed] at hallow
  | wasRefused => exact h
  | ended | admitted | answered | abandoned | reported | wasFinished => simp

def AttemptPhase.budget : AttemptPhase → Nat
  | .allow attempts => attempts.countP AttemptOutcome.fails
  | .send o rest => (o :: rest).countP AttemptOutcome.fails
  | .report ok rest => (if ok then 0 else 1) + rest.countP AttemptOutcome.fails
  | .refused | .finished => 0

theorem moved_budget {clock : Nat → Time} {g g' : Guarded} {phase phase' : AttemptPhase}
    (hmoved : Guarded.Moved clock g phase g' phase') :
    (g'.failed + phase'.budget : Int) ≤ g.failed + phase.budget := by
  cases hmoved with
  | answered h =>
    simp only [AttemptPhase.budget, List.countP_cons, AttemptOutcome.fails, h]
    grind
  | abandoned h =>
    simp only [AttemptPhase.budget, List.countP_cons, AttemptOutcome.fails, h]
    grind
  | ended | admitted | refused | reported | wasRefused | wasFinished =>
    simp only [AttemptPhase.budget]
    grind

section

variable {ι : Type} [DecidableEq ι] [Fintype ι] {n cooldown : Int} {clock : Nat → Time}
  {attempts : ι → List AttemptOutcome} {r : Nat}

/-- The requests of which some attempt would fail. -/
def failingRequests (attempts : ι → List AttemptOutcome) : Finset ι :=
  Finset.univ.filter fun i => (attempts i).any AttemptOutcome.fails

omit [DecidableEq ι] in
theorem sum_budget_le (hlength : ∀ i, (attempts i).length ≤ r) :
    ∑ i, (((AttemptPhase.allow (attempts i)).budget : Nat) : Int) ≤
      r * (failingRequests attempts).card := by
  have hbudget : ∀ i, (((AttemptPhase.allow (attempts i)).budget : Nat) : Int) ≤
      if (attempts i).any AttemptOutcome.fails then (r : Int) else 0 := by
    intro i
    simp only [AttemptPhase.budget]
    split
    · exact_mod_cast List.countP_le_length.trans (hlength i)
    · rename_i hnone
      have hzero : (attempts i).countP AttemptOutcome.fails = 0 := by
        rw [List.countP_eq_zero]
        intro o ho hfails
        exact hnone (List.any_eq_true.mpr ⟨o, ho, hfails⟩)
      rw [hzero]
      simp
  calc ∑ i, (((AttemptPhase.allow (attempts i)).budget : Nat) : Int)
      ≤ ∑ i, if (attempts i).any AttemptOutcome.fails then (r : Int) else 0 :=
        Finset.sum_le_sum fun i _ => hbudget i
    _ = r * (failingRequests attempts).card := by
        rw [← Finset.sum_filter, Finset.sum_const, nsmul_eq_mul, mul_comm]
        rfl

theorem failed_le (hlength : ∀ i, (attempts i).length ≤ r) (schedule : List ι) :
    ((concurrentAttempts n cooldown clock attempts schedule).shared.failed : Int) ≤
      r * (failingRequests attempts).card := by
  have htotal := total_interleave_le (f := fun g : Guarded => (g.failed : Int))
    (g := fun phase => (phase.budget : Int))
    (s := ⟨⟨newConsecutiveFailures n cooldown, 0, 0, 0⟩, fun i => .allow (attempts i)⟩)
    (fun _ g phase => moved_budget (Guarded.move_moved clock g phase)) schedule
  rw [← concurrentAttempts] at htotal
  have hleft : 0 ≤ ∑ i,
      (((concurrentAttempts n cooldown clock attempts schedule).own i).budget : Int) :=
    Finset.sum_nonneg fun i _ => Int.natCast_nonneg _
  have hstart := sum_budget_le hlength
  simp only [total, Nat.cast_zero, zero_add] at htotal
  omega

/-- A breaker opens for no fewer than `n` failed attempts.  When a request makes at most `r`
    of them, requests whose attempts fail must come together for it: if they are too few,
    the breaker stays closed however their attempts interleave with others, and no request
    is refused.  Answers below 500 and requests the client abandoned do not count. -/
theorem attempts_admitted (hlength : ∀ i, (attempts i).length ≤ r)
    (hfew : (r * (failingRequests attempts).card : Int) < max n 1) (schedule : List ι) :
    (concurrentAttempts n cooldown clock attempts schedule).shared.breaker.state = breakerClosed ∧
      ∀ i, (concurrentAttempts n cooldown clock attempts schedule).own i ≠ .refused := by
  have htallied : ∀ schedule,
      (concurrentAttempts n cooldown clock attempts schedule).shared.Tallied n := by
    intro schedule
    refine interleave_induction (P := fun s : System ι Guarded AttemptPhase => s.shared.Tallied n)
      (start_tallied n cooldown) ?_ schedule
    intro s i h
    exact moved_tallied (Guarded.move_moved clock s.shared (s.own i)) h
  have hclosed : ∀ schedule,
      (concurrentAttempts n cooldown clock attempts schedule).shared.breaker.state =
        breakerClosed := by
    intro schedule
    by_contra hopen
    have hfailed := (htallied schedule).opened hopen
    have hle : ((concurrentAttempts n cooldown clock attempts schedule).shared.failed : Int) ≤ _ :=
      failed_le hlength schedule
    omega
  refine ⟨hclosed schedule, ?_⟩
  -- a request is only refused by a breaker that is not closed
  refine Machine.invariant
    (P := fun _ (s : System ι Guarded AttemptPhase) => ∀ i, s.own i ≠ .refused) ?_ ?_ schedule
  · intro i h
    cases h
  · intro schedule i h j
    by_cases hj : j = i
    · subst hj
      rw [step_own_self]
      exact moved_not_refused (Guarded.move_moved clock _ _) (hclosed schedule) (h j)
    · rw [step_own_of_ne hj]
      exact h j

/-! ## What an open breaker lets through -/

def ConsecutiveFailures.heldSince (b : ConsecutiveFailures) : Int :=
  match b.state with
  | breakerClosed => 0
  | breakerOpen => b.since
  | breakerHalfOpen => b.lastProbe

@[simp] theorem ConsecutiveFailures.heldSince_opened (b : ConsecutiveFailures) (now : Time) :
    (b.opened now).heldSince = now := rfl

@[simp] theorem ConsecutiveFailures.heldSince_probed (b : ConsecutiveFailures) (recorded : Time) :
    { b with state := breakerHalfOpen, lastProbe := recorded }.heldSince = recorded := rfl

/-- The breaker's times have been read from the clock. -/
def Guarded.Past (clock : Nat → Time) (g : Guarded) : Prop :=
  g.breaker.state ≠ breakerClosed → g.breaker.heldSince ≤ clock g.tick

def AttemptPhase.inFlight : AttemptPhase → Bool
  | .send _ _ => true
  | _ => false

/-- Readings of a monotonic clock. -/
def NeverBack (clock : Nat → Time) : Prop := ∀ ⦃i j : Nat⦄, i ≤ j → clock i ≤ clock j

theorem past_step {clock : Nat → Time} (hmono : NeverBack clock) {g : Guarded} (h : g.Past clock)
    {c : ConsecutiveFailures.Call} {tick sent failed : Nat} (htick : g.tick ≤ tick)
    (hreadings : ∀ t ∈ c.readings, t ≤ clock tick) :
    Guarded.Past clock ⟨g.breaker.step c, tick, sent, failed⟩ := by
  have hmoves := ConsecutiveFailures.step_moves g.breaker c
  have hlater := hmono htick
  intro hstate
  unfold Guarded.Past at h
  simp only at hstate ⊢
  generalize g.breaker.step c = b' at hmoves hstate ⊢
  cases hmoves with
  | passed _ => exact (h hstate).trans hlater
  | refused _ _ => exact (h hstate).trans hlater
  | @probed now recorded _ _ => exact hreadings recorded (by simp [ConsecutiveFailures.Call.readings])
  | closed => exact absurd rfl hstate
  | counted hclosed _ => exact absurd hclosed hstate
  | @opened now _ => exact hreadings now (by simp [ConsecutiveFailures.Call.readings])
  | ignored _ => exact (h hstate).trans hlater

theorem moved_past {clock : Nat → Time} (hmono : NeverBack clock) {g g' : Guarded}
    {phase phase' : AttemptPhase} (hmoved : Guarded.Moved clock g phase g' phase')
    (h : g.Past clock) : g'.Past clock := by
  cases hmoved with
  | admitted _ | refused _ =>
    apply past_step hmono h (Nat.le_add_right g.tick 2)
    intro t ht
    simp only [ConsecutiveFailures.Call.readings, List.mem_cons, List.not_mem_nil, or_false] at ht
    rcases ht with rfl | rfl
    · exact hmono (by omega)
    · exact hmono (by omega)
  | reported =>
    apply past_step hmono h (Nat.le_add_right g.tick 1)
    intro t ht
    rw [List.mem_singleton.mp ht]
    exact hmono (by omega)
  | ended | answered | abandoned | wasRefused | wasFinished => exact h

theorem heldSince_admitted {b : ConsecutiveFailures} {now recorded : Time} (hle : now ≤ recorded)
    (h : (b.allow now recorded).2 = true) (hstate : b.state ≠ breakerClosed) :
    b.heldSince + b.cooldown ≤ (b.step (.allow now recorded)).heldSince := by
  have hmoves := ConsecutiveFailures.step_moves b (.allow now recorded)
  generalize b.step (.allow now recorded) = b' at hmoves ⊢
  cases hmoves with
  | passed hclosed => exact absurd hclosed hstate
  | refused hrefused _ => simp [h] at hrefused
  | probed _ hdue =>
    simp only [ConsecutiveFailures.heldSince_probed]
    rcases hdue with ⟨hopen, hdue⟩ | ⟨hhalf, hdue⟩
    · simp only [ConsecutiveFailures.heldSince, hopen]
      exact hdue.trans hle
    · simp only [ConsecutiveFailures.heldSince, hhalf]
      exact hdue.trans hle

theorem heldSince_refused {b : ConsecutiveFailures} {now recorded : Time}
    (h : (b.allow now recorded).2 = false) : b.step (.allow now recorded) = b := by
  have hmoves := ConsecutiveFailures.step_moves b (.allow now recorded)
  generalize b.step (.allow now recorded) = b' at hmoves ⊢
  cases hmoves with
  | passed _ => rfl
  | refused _ _ => rfl
  | probed hadmitted _ => simp [h] at hadmitted

theorem heldSince_reported {b : ConsecutiveFailures} {ok : Bool} {now : Time}
    (hle : b.heldSince ≤ now) (hbefore : b.state ≠ breakerClosed)
    (hafter : (b.step (.report ok now)).state ≠ breakerClosed) :
    b.heldSince ≤ (b.step (.report ok now)).heldSince := by
  have hmoves := ConsecutiveFailures.step_moves b (.report ok now)
  generalize b.step (.report ok now) = b' at hmoves hafter ⊢
  cases hmoves with
  | closed => exact absurd rfl hafter
  | counted hclosed _ => exact absurd hclosed hbefore
  | opened _ => exact hle
  | ignored _ => exact le_refl _

theorem moved_cooldown {clock : Nat → Time} {g g' : Guarded} {phase phase' : AttemptPhase}
    (hmoved : Guarded.Moved clock g phase g' phase') :
    g'.breaker.cooldown = g.breaker.cooldown := by
  cases hmoved with
  | admitted _ | refused _ | reported => exact (ConsecutiveFailures.step_settings _ _).2
  | ended | answered | abandoned | wasRefused | wasFinished => rfl

/-- The cooldowns of the attempts sent and in flight, against the time that passed. -/
def Guarded.paid (cooldown : Int) (g : Guarded) : Int := cooldown * g.sent - g.breaker.heldSince

def AttemptPhase.owing (cooldown : Int) (phase : AttemptPhase) : Int :=
  if phase.inFlight then cooldown else 0

/-- While the breaker is not closed, no step lets an attempt through for less than a
    cooldown. -/
theorem moved_paid {clock : Nat → Time} (hmono : NeverBack clock) {g g' : Guarded}
    {phase phase' : AttemptPhase} (hmoved : Guarded.Moved clock g phase g' phase')
    (hpast : g.Past clock) (hbefore : g.breaker.state ≠ breakerClosed)
    (hafter : g'.breaker.state ≠ breakerClosed) :
    g'.paid g.breaker.cooldown + phase'.owing g.breaker.cooldown ≤
      g.paid g.breaker.cooldown + phase.owing g.breaker.cooldown := by
  cases hmoved with
  | admitted h =>
    have hpaid := heldSince_admitted (hmono (Nat.le_add_right g.tick 1)) h hbefore
    simp only [Guarded.paid, AttemptPhase.owing, AttemptPhase.inFlight, if_true,
      Bool.false_eq_true, if_false]
    omega
  | refused h =>
    simp only [Guarded.paid, heldSince_refused h]
    exact le_refl _
  | answered _ | abandoned _ =>
    simp only [Guarded.paid, AttemptPhase.owing, AttemptPhase.inFlight, if_true,
      Bool.false_eq_true, if_false, Nat.cast_add, Nat.cast_one, mul_add, mul_one]
    omega
  | reported =>
    have hheld := heldSince_reported (hpast hbefore) hbefore hafter
    simp only [Guarded.paid, AttemptPhase.owing, AttemptPhase.inFlight, Bool.false_eq_true, if_false]
    omega
  | ended | wasRefused | wasFinished => exact le_refl _

omit [Fintype ι] in
theorem concurrentAttempts_append (first second : List ι) :
    concurrentAttempts n cooldown clock attempts (first ++ second) =
      interleave (fun _ g phase => g.move clock phase)
        (concurrentAttempts n cooldown clock attempts first) second :=
  Machine.after_append first second

omit [Fintype ι] in
theorem concurrentAttempts_past (hmono : NeverBack clock) (schedule : List ι) :
    (concurrentAttempts n cooldown clock attempts schedule).shared.Past clock ∧
      (concurrentAttempts n cooldown clock attempts schedule).shared.breaker.cooldown = cooldown := by
  refine interleave_induction (P := fun s : System ι Guarded AttemptPhase =>
    s.shared.Past clock ∧ s.shared.breaker.cooldown = cooldown) ⟨?_, rfl⟩ ?_ schedule
  · intro h
    exact absurd rfl h
  · intro s i ⟨hpast, hcooldown⟩
    have hmoved := Guarded.move_moved clock s.shared (s.own i)
    exact ⟨moved_past hmono hmoved hpast, (moved_cooldown hmoved).trans hcooldown⟩

theorem paid_stretch (hmono : NeverBack clock) (first : List ι) (second : List ι) :
    (∀ part, part <+: second →
      (concurrentAttempts n cooldown clock attempts (first ++ part)).shared.breaker.state ≠
        breakerClosed) →
    total (Guarded.paid cooldown) (AttemptPhase.owing cooldown)
        (concurrentAttempts n cooldown clock attempts (first ++ second)) ≤
      total (Guarded.paid cooldown) (AttemptPhase.owing cooldown)
        (concurrentAttempts n cooldown clock attempts first) := by
  induction second using List.reverseRecOn with
  | nil =>
    intro _
    rw [List.append_nil]
  | append_singleton second i ih =>
    intro hopen
    have hbefore := hopen second (List.prefix_append _ _)
    have hafter := hopen (second ++ [i]) (List.prefix_refl _)
    have hle := ih fun part hpart => hopen part (hpart.trans (List.prefix_append _ _))
    rw [← List.append_assoc, concurrentAttempts_append] at hafter ⊢
    obtain ⟨hpast, hcooldown⟩ : _ ∧
        (concurrentAttempts n cooldown clock attempts (first ++ second)).shared.breaker.cooldown =
          cooldown := concurrentAttempts_past hmono (first ++ second)
    generalize concurrentAttempts n cooldown clock attempts (first ++ second) = s at *
    have hpaid := moved_paid hmono (Guarded.move_moved clock s.shared (s.own i)) hpast hbefore hafter
    rw [hcooldown] at hpaid
    rw [interleave_singleton]
    have hstep : total (Guarded.paid cooldown) (AttemptPhase.owing cooldown) (step _ s i) ≤ _ :=
      total_step_le (fun _ g phase => Guarded.move clock g phase) hpaid
    exact hstep.trans hle

/-- While the breaker stays open or half-open the network sees little: from any moment on,
    the attempts that go out, beyond those already on their way, take a cooldown each, counted
    from the opening or the probe the breaker last saw. -/
theorem open_load (hmono : NeverBack clock) (hcooldown : 0 ≤ cooldown) {first second : List ι}
    (hopen : ∀ part, part <+: second →
      (concurrentAttempts n cooldown clock attempts (first ++ part)).shared.breaker.state ≠
        breakerClosed)
    {s s' : System ι Guarded AttemptPhase}
    (hs : concurrentAttempts n cooldown clock attempts first = s)
    (hs' : concurrentAttempts n cooldown clock attempts (first ++ second) = s') :
    cooldown * (s'.shared.sent - s.shared.sent) ≤
      clock s'.shared.tick - s.shared.breaker.heldSince +
        cooldown * Fintype.card { i // (s.own i).inFlight } := by
  have hpaid : total (Guarded.paid cooldown) (AttemptPhase.owing cooldown) _ ≤ _ :=
    paid_stretch hmono first second hopen
  have hpast := (concurrentAttempts_past (n := n) hmono (first ++ second)).1
    (hopen second (List.prefix_refl _))
  rw [hs'] at hpast hpaid
  rw [hs] at hpaid
  have howed : ∑ i, (s.own i).owing cooldown =
      cooldown * Fintype.card { i // (s.own i).inFlight } := by
    simp only [AttemptPhase.owing]
    rw [← Finset.sum_filter, Finset.sum_const, nsmul_eq_mul, mul_comm, Fintype.card_subtype]
  have howing : 0 ≤ ∑ i, (s'.own i).owing cooldown := by
    refine Finset.sum_nonneg fun i _ => ?_
    simp only [AttemptPhase.owing]
    split <;> omega
  simp only [total, Guarded.paid, howed] at hpaid
  rw [mul_sub]
  omega

end

def unreachable : AttemptOutcome := ⟨some 0, some {}⟩

theorem two_requests_admitted :
    (concurrentAttempts 3 10 (fun t => (t : Int)) (fun _ : Bool => [unreachable])
        [false, true, false, true, true, false]).shared.breaker.state = breakerClosed ∧
      ∀ i, (concurrentAttempts 3 10 (fun t => (t : Int)) (fun _ : Bool => [unreachable])
        [false, true, false, true, true, false]).own i ≠ .refused :=
  attempts_admitted (r := 1) (fun _ => by decide) (by decide) _

/-- A backend that is down, behind a breaker that opens at the first failure. -/
def outage (schedule : List (Fin 3)) : System (Fin 3) Guarded AttemptPhase :=
  concurrentAttempts 1 10 (fun t => (t : Int)) (fun _ => [unreachable]) schedule

theorem outage_open (part : List (Fin 3)) (h : part <+: [1, 2]) :
    (outage ([0, 1, 0, 0] ++ part)).shared.breaker.state ≠ breakerClosed := by
  have hall : ∀ part ∈ [(1 : Fin 3), 2].inits,
      (outage ([0, 1, 0, 0] ++ part)).shared.breaker.state ≠ breakerClosed := by decide
  exact hall part ((List.mem_inits part _).mpr h)

/-- The first request opened the breaker while the second was on its way; the third asks
    within the cooldown. -/
theorem outage_load :
    (10 : Int) * ((outage [0, 1, 0, 0, 1, 2]).shared.sent - (outage [0, 1, 0, 0]).shared.sent) ≤
      (outage [0, 1, 0, 0, 1, 2]).shared.tick - (outage [0, 1, 0, 0]).shared.breaker.heldSince +
        10 * Fintype.card { i // ((outage [0, 1, 0, 0]).own i).inFlight } := by
  have hmono : NeverBack fun t => (t : Time) := fun a b h => Int.ofNat_le.mpr h
  exact open_load hmono (by decide) outage_open rfl rfl

end S3Gateway.S3gw
