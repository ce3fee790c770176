import S3Gateway.Library.Machine
import S3Gateway.Go.Date
import Mathlib.Tactic.Common

/-! # The circuit breaker

`ConsecutiveFailures` under every sequence of its two calls.  Both hold the mutex from
their first line to their last, so a run is a list of calls.  `Allow` reads the clock twice
when it admits a probe, once to decide and once to record it, and a call carries both
readings.

The discipline rests on two facts.  While the breaker is closed its counter is the number
of failures since the last success, and from the moment it is not closed no attempt is
admitted before `cooldown` has passed since the last opening or probe. -/

namespace S3Gateway.S3gw

open Go Machine

/-! ## The model -/

inductive BreakerState where
  | breakerClosed
  | breakerOpen
  | breakerHalfOpen
deriving DecidableEq

open BreakerState

/-- `ConsecutiveFailures`; the clock is read by the calls. -/
structure ConsecutiveFailures where
  n : Int
  cooldown : Int
  state : BreakerState
  failures : Int
  since : Time
  lastProbe : Time
deriving DecidableEq

def newConsecutiveFailures (n cooldown : Int) : ConsecutiveFailures where
  n := if n < 1 then 1 else n
  cooldown := cooldown
  state := breakerClosed
  failures := 0
  -- the zero time; no call reads either before it is set
  since := 0
  lastProbe := 0

namespace ConsecutiveFailures

/-- `Allow()`, with the reading that decides and the one that is recorded. -/
def allow (b : ConsecutiveFailures) (now recorded : Time) : ConsecutiveFailures × Bool :=
  match b.state with
  | breakerClosed => (b, true)
  | breakerOpen =>
    if now - b.since < b.cooldown then (b, false)
    else ({ b with state := breakerHalfOpen, lastProbe := recorded }, true)
  | breakerHalfOpen =>
    if now - b.lastProbe < b.cooldown then (b, false)
    else ({ b with lastProbe := recorded }, true)

/-- `open()`. -/
def opened (b : ConsecutiveFailures) (now : Time) : ConsecutiveFailures :=
  { b with state := breakerOpen, failures := 0, since := now }

def report (b : ConsecutiveFailures) (ok : Bool) (now : Time) : ConsecutiveFailures :=
  if ok then { b with state := breakerClosed, failures := 0 }
  else
    match b.state with
    | breakerClosed =>
      let b := { b with failures := b.failures + 1 }
      if b.failures ≥ b.n then b.opened now else b
    | breakerHalfOpen => b.opened now
    | breakerOpen => b

/-! ## Runs -/

/-- A call, with the clock at its start and, for `Allow`, at its end. -/
inductive Call where
  | allow (now recorded : Time)
  | report (ok : Bool) (now : Time)
deriving DecidableEq

namespace Call

def readings : Call → List Time
  | .allow now recorded => [now, recorded]
  | .report _ now => [now]

def succeeds : Call → Bool
  | .allow .. => false
  | .report ok _ => ok

def fails : Call → Bool
  | .allow .. => false
  | .report ok _ => !ok

end Call

def step (b : ConsecutiveFailures) : Call → ConsecutiveFailures
  | .allow now recorded => (b.allow now recorded).1
  | .report ok now => b.report ok now

/-- The clock never runs backwards over the calls. -/
def Clocked (calls : List Call) : Prop := (calls.flatMap Call.readings).Pairwise (· ≤ ·)

instance (calls : List Call) : Decidable (Clocked calls) :=
  inferInstanceAs (Decidable (List.Pairwise _ _))

/-- The time of the opening a call makes, if it makes one. -/
def opening (b : ConsecutiveFailures) (c : Call) : Option Time :=
  match c with
  | .allow .. => none
  | .report _ now =>
    if b.state ≠ breakerOpen ∧ (b.step c).state = breakerOpen then some now else none

/-- The time of the probe a call admits, if it admits one. -/
def probe (b : ConsecutiveFailures) : Call → Option Time
  | .allow now recorded =>
    if b.state ≠ breakerClosed ∧ (b.allow now recorded).2 then some recorded else none
  | .report .. => none

/-- The breaker some calls lead to from the start. -/
def reached (n cooldown : Int) (calls : List Call) : ConsecutiveFailures :=
  after step (newConsecutiveFailures n cooldown) calls

/-- The times of the openings and of the probes, in order. -/
def openings (n cooldown : Int) (calls : List Call) : List Time :=
  log step opening (newConsecutiveFailures n cooldown) calls

def probes (n cooldown : Int) (calls : List Call) : List Time :=
  log step probe (newConsecutiveFailures n cooldown) calls

/-- The calls end in `row`: everything since the last success, or since the start, and all
    of it while the breaker is closed. -/
structure ClosedRow (n cooldown : Int) (calls row : List Call) : Prop where
  split : ∃ earlier, calls = earlier ++ row ∧
    (earlier = [] ∨ ∃ first now, earlier = first ++ [.report true now]) ∧
    ∀ part, part <+: row → (reached n cooldown (earlier ++ part)).state = breakerClosed
  unbroken : ∀ c ∈ row, c.succeeds = false

/-- The breaker's promises, over every way to cut the run at the calls concerned. -/
structure Disciplined (n cooldown : Int) (calls : List Call) : Prop where
  -- it leaves the closed state at the `n`-th failure in a row
  opens : ∀ {before c rest}, calls = before ++ c :: rest →
    (reached n cooldown before).state = breakerClosed →
    (reached n cooldown (before ++ [c])).state ≠ breakerClosed →
    ∃ now row, c = .report false now ∧ ClosedRow n cooldown before row ∧
      (row.countP Call.fails : Int) + 1 = n
  -- nothing is admitted within the cooldown of an opening
  cools : ∀ {before c mid now recorded rest t},
    calls = before ++ c :: mid ++ .allow now recorded :: rest →
    (reached n cooldown before).opening c = some t →
    (∀ d ∈ mid, d.succeeds = false) →
    ((reached n cooldown (before ++ c :: mid)).allow now recorded).2 = true →
    t + cooldown ≤ now
  -- from an opening to the next success, what is admitted is a cooldown apart
  spaces : ∀ {before c first now recorded second now' recorded' rest t},
    calls = before ++ c :: first ++ .allow now recorded :: second ++
      .allow now' recorded' :: rest →
    (reached n cooldown before).opening c = some t →
    (∀ d ∈ first ++ second, d.succeeds = false) →
    ((reached n cooldown (before ++ c :: first)).allow now recorded).2 = true →
    ((reached n cooldown (before ++ c :: first ++ .allow now recorded :: second)).allow
      now' recorded').2 = true →
    recorded + cooldown ≤ now'
  -- a cooldown after the last opening and the last probe, an attempt is admitted
  recovers : ∀ {before now recorded rest}, calls = before ++ .allow now recorded :: rest →
    (∀ t ∈ (openings n cooldown before).getLast?, t + cooldown ≤ now) →
    (∀ t ∈ (probes n cooldown before).getLast?, t + cooldown ≤ now) →
    ((reached n cooldown before).allow now recorded).2 = true

/-! ## What a call can do -/

/-- Every way a call can change the breaker. -/
inductive Moves (b : ConsecutiveFailures) : Call → ConsecutiveFailures → Prop
  | passed {now recorded} : b.state = breakerClosed → Moves b (.allow now recorded) b
  | refused {now recorded} : (b.allow now recorded).2 = false →
      (b.state = breakerOpen ∧ now < b.since + b.cooldown ∨
        b.state = breakerHalfOpen ∧ now < b.lastProbe + b.cooldown) →
      Moves b (.allow now recorded) b
  | probed {now recorded} : (b.allow now recorded).2 = true →
      (b.state = breakerOpen ∧ b.since + b.cooldown ≤ now ∨
        b.state = breakerHalfOpen ∧ b.lastProbe + b.cooldown ≤ now) →
      Moves b (.allow now recorded) { b with state := breakerHalfOpen, lastProbe := recorded }
  | closed {now} : Moves b (.report true now) { b with state := breakerClosed, failures := 0 }
  | counted {now} : b.state = breakerClosed → b.failures + 1 < b.n →
      Moves b (.report false now) { b with failures := b.failures + 1 }
  | opened {now} :
      (b.state = breakerClosed ∧ b.n ≤ b.failures + 1 ∨ b.state = breakerHalfOpen) →
      Moves b (.report false now) (b.opened now)
  | ignored {now} : b.state = breakerOpen → Moves b (.report false now) b

theorem step_moves (b : ConsecutiveFailures) (c : Call) : Moves b c (b.step c) := by
  obtain ⟨n, cooldown, state, failures, since, lastProbe⟩ := b
  -- one way for each branch; a closed breaker passes an attempt and counts its failure
  cases c with
  | allow now recorded =>
    cases state with
    | breakerClosed => exact .passed rfl
    | breakerOpen =>
      by_cases h : now - since < cooldown
      · simp only [step, allow, if_pos h]
        exact .refused (by simp only [allow, if_pos h])
          (.inl ⟨rfl, Int.lt_add_of_sub_left_lt h⟩)
      · simp only [step, allow, if_neg h]
        exact .probed (by simp only [allow, if_neg h])
          (.inl ⟨rfl, Int.add_le_of_le_sub_left (Int.not_lt.mp h)⟩)
    | breakerHalfOpen =>
      by_cases h : now - lastProbe < cooldown
      · simp only [step, allow, if_pos h]
        exact .refused (by simp only [allow, if_pos h])
          (.inr ⟨rfl, Int.lt_add_of_sub_left_lt h⟩)
      · simp only [step, allow, if_neg h]
        exact .probed (by simp only [allow, if_neg h])
          (.inr ⟨rfl, Int.add_le_of_le_sub_left (Int.not_lt.mp h)⟩)
  | report ok now =>
    cases ok with
    | true => exact .closed
    | false =>
      cases state with
      | breakerOpen => exact .ignored rfl
      | breakerHalfOpen => exact .opened (.inr rfl)
      | breakerClosed =>
        by_cases h : failures + 1 ≥ n
        · simp only [step, report, Bool.false_eq_true, if_false, if_pos h]
          exact .opened (.inl ⟨rfl, h⟩)
        · simp only [step, report, Bool.false_eq_true, if_false, if_neg h]
          exact .counted rfl (by simp only; omega)

theorem step_settings (b : ConsecutiveFailures) (c : Call) :
    (b.step c).n = b.n ∧ (b.step c).cooldown = b.cooldown := by
  have hmoves := step_moves b c
  generalize b.step c = b' at hmoves ⊢
  cases hmoves <;> exact ⟨rfl, rfl⟩

theorem after_settings (b : ConsecutiveFailures) (calls : List Call) :
    (after step b calls).n = b.n ∧ (after step b calls).cooldown = b.cooldown := by
  refine invariant (P := fun _ (b' : ConsecutiveFailures) => b'.n = b.n ∧ b'.cooldown = b.cooldown) ⟨rfl, rfl⟩ ?_ calls
  intro calls c ⟨hn, hcooldown⟩
  obtain ⟨hn', hcooldown'⟩ := step_settings (after step b calls) c
  exact ⟨hn'.trans hn, hcooldown'.trans hcooldown⟩

theorem allow_admitted {b : ConsecutiveFailures} {now recorded : Time}
    (h : (b.allow now recorded).2 = true) :
    b.state = breakerClosed ∨ b.state = breakerOpen ∧ b.since + b.cooldown ≤ now ∨
      b.state = breakerHalfOpen ∧ b.lastProbe + b.cooldown ≤ now := by
  have hmoves := step_moves b (.allow now recorded)
  generalize b.step (.allow now recorded) = b' at hmoves
  cases hmoves with
  | passed hstate => exact .inl hstate
  | refused hrefused _ => simp [h] at hrefused
  | probed _ hdue => exact .inr hdue

theorem opening_eq_some {b : ConsecutiveFailures} {c : Call} {t : Time}
    (h : b.opening c = some t) : c = .report false t ∧ b.step c = b.opened t := by
  cases c with
  | allow now recorded => simp [opening] at h
  | report ok now =>
    simp only [opening, Option.ite_none_right_eq_some, Option.some.injEq] at h
    obtain ⟨⟨hbefore, hafter⟩, rfl⟩ := h
    have hmoves := step_moves b (.report ok now)
    generalize b.step (.report ok now) = b' at hmoves hafter ⊢
    cases hmoves with
    | closed => simp at hafter
    | counted hstate => simp [hstate] at hafter
    | opened => exact ⟨rfl, rfl⟩
    | ignored hstate => exact absurd hstate hbefore

theorem opening_of_opened {b : ConsecutiveFailures} {now : Time}
    (hbefore : b.state ≠ breakerOpen) (hafter : b.step (.report false now) = b.opened now) :
    b.opening (.report false now) = some now := by
  simp only [opening, hafter, ne_eq, hbefore, not_false_eq_true, true_and]
  rfl

/-! ## The row of failures that opens the breaker -/

/-- While the breaker is closed, its counter is the number of failures in the row. -/
def Counts (n cooldown : Int) (calls : List Call) (b : ConsecutiveFailures) : Prop :=
  b.state = breakerClosed → b.failures < b.n ∧
    ∃ row, ClosedRow n cooldown calls row ∧ (row.countP Call.fails : Int) = b.failures

/-- A row goes on with a call that leaves the breaker closed and is no success. -/
theorem ClosedRow.snoc {n cooldown : Int} {calls row : List Call} {c : Call}
    (h : ClosedRow n cooldown calls row) (hc : c.succeeds = false)
    (hstate : (reached n cooldown (calls ++ [c])).state = breakerClosed) :
    ClosedRow n cooldown (calls ++ [c]) (row ++ [c]) := by
  obtain ⟨earlier, rfl, hstart, hclosed⟩ := h.split
  refine ⟨⟨earlier, List.append_assoc .., hstart, ?_⟩, ?_⟩
  · intro part hpart
    rcases List.prefix_concat_iff.mp hpart with rfl | hpart
    · rw [← List.append_assoc]
      exact hstate
    · exact hclosed part hpart
  · intro d hd
    rcases List.mem_append.mp hd with hd | hd
    · exact h.unbroken d hd
    · rw [List.mem_singleton.mp hd]
      exact hc

theorem ClosedRow.restart {n cooldown : Int} {calls : List Call} {now : Time}
    (hstate : (reached n cooldown (calls ++ [.report true now])).state = breakerClosed) :
    ClosedRow n cooldown (calls ++ [.report true now]) [] where
  split := by
    refine ⟨_, (List.append_nil _).symm, .inr ⟨calls, now, rfl⟩, ?_⟩
    intro part hpart
    rw [List.prefix_nil.mp hpart, List.append_nil]
    exact hstate
  unbroken c hc := by simp at hc

theorem reached_snoc (n cooldown : Int) (calls : List Call) (c : Call) :
    reached n cooldown (calls ++ [c]) = (reached n cooldown calls).step c := by
  simp [reached]

theorem counts_step {n cooldown : Int} {calls : List Call} (c : Call)
    (h : Counts n cooldown calls (reached n cooldown calls)) (hn : 1 ≤ (reached n cooldown calls).n) :
    Counts n cooldown (calls ++ [c]) ((reached n cooldown calls).step c) := by
  intro hafter
  have hstate := hafter
  rw [← reached_snoc] at hstate
  have hmoves := step_moves (reached n cooldown calls) c
  generalize (reached n cooldown calls).step c = b' at hmoves hafter ⊢
  cases hmoves with
  | passed hclosed =>
    obtain ⟨hfew, row, hrow, hcount⟩ := h hclosed
    exact ⟨hfew, _, hrow.snoc rfl hstate, by simpa [Call.fails] using hcount⟩
  | refused hrefused =>
    obtain ⟨hfew, row, hrow, hcount⟩ := h hafter
    exact ⟨hfew, _, hrow.snoc rfl hstate, by simpa [Call.fails] using hcount⟩
  | probed => simp at hafter
  | closed => exact ⟨by simp only; omega, [], .restart hstate, rfl⟩
  | counted hclosed hfew =>
    obtain ⟨-, row, hrow, hcount⟩ := h hclosed
    exact ⟨hfew, _, hrow.snoc rfl hstate, by simp [Call.fails, hcount]⟩
  | opened => simp [ConsecutiveFailures.opened] at hafter
  | ignored hopen => simp [hopen] at hafter

theorem reached_n {n : Int} (hn : 1 ≤ n) (cooldown : Int) (calls : List Call) :
    (reached n cooldown calls).n = n := by
  rw [reached, (after_settings _ calls).1, newConsecutiveFailures]
  exact if_neg (by omega)

theorem reached_cooldown (n cooldown : Int) (calls : List Call) :
    (reached n cooldown calls).cooldown = cooldown :=
  (after_settings _ calls).2

theorem counts_reached {n : Int} (hn : 1 ≤ n) (cooldown : Int) (calls : List Call) :
    Counts n cooldown calls (reached n cooldown calls) := by
  refine invariant ?_ ?_ calls
  · intro hclosed
    refine ⟨?_, [], ⟨⟨[], rfl, .inl rfl, ?_⟩, ?_⟩, rfl⟩
    · show 0 < (reached n cooldown []).n
      rw [reached_n hn]
      omega
    · intro part hpart
      rw [List.prefix_nil.mp hpart]
      exact hclosed
    · intro c hc
      simp at hc
  · intro calls c h
    exact counts_step c h (by rw [reached_n hn]; exact hn)

theorem opens_at_nth {n : Int} (hn : 1 ≤ n) {cooldown : Int} {before : List Call} {c : Call}
    (hbefore : (reached n cooldown before).state = breakerClosed)
    (hafter : (reached n cooldown (before ++ [c])).state ≠ breakerClosed) :
    ∃ now row, c = .report false now ∧ ClosedRow n cooldown before row ∧
      (row.countP Call.fails : Int) + 1 = n := by
  obtain ⟨hfew, row, hrow, hcount⟩ := counts_reached hn cooldown before hbefore
  rw [reached_n hn] at hfew
  rw [reached_snoc] at hafter
  have hmoves := step_moves (reached n cooldown before) c
  generalize (reached n cooldown before).step c = b' at hmoves hafter
  cases hmoves with
  | passed => exact absurd hbefore hafter
  | refused => exact absurd hbefore hafter
  | probed _ hdue => simp [hbefore] at hdue
  | closed => simp at hafter
  | counted => exact absurd hbefore hafter
  | @opened now hwhy =>
    refine ⟨now, row, rfl, hrow, ?_⟩
    simp only [hbefore, true_and, reduceCtorEq, or_false, reached_n hn] at hwhy
    omega
  | ignored => exact absurd hbefore hafter

/-! ## The cooldown -/

/-- The breaker is not closed and the time it counts its cooldown from is `t` or later. -/
def HeldSince (t : Time) (b : ConsecutiveFailures) : Prop :=
  b.state = breakerOpen ∧ t ≤ b.since ∨ b.state = breakerHalfOpen ∧ t ≤ b.lastProbe

theorem HeldSince.admitted {t : Time} {b : ConsecutiveFailures} {now recorded : Time}
    (h : HeldSince t b) (hallow : (b.allow now recorded).2 = true) : t + b.cooldown ≤ now := by
  rcases allow_admitted hallow with hstate | ⟨hstate, hdue⟩ | ⟨hstate, hdue⟩
  · simp [HeldSince, hstate] at h
  · simp only [HeldSince, hstate, true_and, reduceCtorEq, false_and, or_false] at h
    exact Int.le_trans (Int.add_le_add_right h _) hdue
  · simp only [HeldSince, hstate, true_and, reduceCtorEq, false_and, false_or] at h
    exact Int.le_trans (Int.add_le_add_right h _) hdue

/-- Only a success ends it: a failure re-opens the breaker at its own time, and a probe is
    recorded at its own. -/
theorem HeldSince.kept {t : Time} {b : ConsecutiveFailures} {c : Call} (h : HeldSince t b)
    (hc : c.succeeds = false) (hclock : ∀ u ∈ c.readings, t ≤ u) : HeldSince t (b.step c) := by
  have hmoves := step_moves b c
  generalize b.step c = b' at hmoves ⊢
  cases hmoves with
  | passed => exact h
  | refused => exact h
  | probed => exact .inr ⟨rfl, hclock _ (by simp [Call.readings])⟩
  | closed => simp [Call.succeeds] at hc
  | counted hstate => simp [HeldSince, hstate] at h
  | @opened now => exact .inl ⟨rfl, hclock now (by simp [Call.readings])⟩
  | ignored => exact h

theorem HeldSince.over {t : Time} {b : ConsecutiveFailures} {calls : List Call}
    (h : HeldSince t b) (hcalls : ∀ c ∈ calls, c.succeeds = false)
    (hclock : ∀ u ∈ calls.flatMap Call.readings, t ≤ u) : HeldSince t (after step b calls) := by
  induction calls generalizing b with
  | nil => exact h
  | cons c calls ih =>
    rw [List.forall_mem_cons] at hcalls
    rw [List.flatMap_cons, List.forall_mem_append] at hclock
    exact ih (h.kept hcalls.1 hclock.1) hcalls.2 hclock.2

theorem heldSince_opening {b : ConsecutiveFailures} {c : Call} {t : Time}
    (h : b.opening c = some t) : HeldSince t (b.step c) := by
  rw [(opening_eq_some h).2]
  exact .inl ⟨rfl, Int.le_refl t⟩

theorem HeldSince.probed {b : ConsecutiveFailures} {t now recorded : Time} (h : HeldSince t b)
    (hallow : (b.allow now recorded).2 = true) :
    HeldSince recorded (b.step (.allow now recorded)) := by
  have hmoves := step_moves b (.allow now recorded)
  generalize b.step (.allow now recorded) = b' at hmoves ⊢
  cases hmoves with
  | passed hstate => simp [HeldSince, hstate] at h
  | refused hrefused _ => simp [hallow] at hrefused
  | probed => exact .inr ⟨rfl, Int.le_refl _⟩

/-! ## Recovery -/

/-- The time the state counts from is the one of the last opening or of the last probe. -/
def Recorded (n cooldown : Int) (calls : List Call) (b : ConsecutiveFailures) : Prop :=
  (b.state = breakerOpen → (openings n cooldown calls).getLast? = some b.since) ∧
  (b.state = breakerHalfOpen → (probes n cooldown calls).getLast? = some b.lastProbe)

theorem openings_snoc (n cooldown : Int) (calls : List Call) (c : Call) :
    openings n cooldown (calls ++ [c]) =
      openings n cooldown calls ++ ((reached n cooldown calls).opening c).toList :=
  log_snoc calls c

theorem probes_snoc (n cooldown : Int) (calls : List Call) (c : Call) :
    probes n cooldown (calls ++ [c]) =
      probes n cooldown calls ++ ((reached n cooldown calls).probe c).toList :=
  log_snoc calls c

theorem recorded_step {n cooldown : Int} {calls : List Call} (c : Call)
    (h : Recorded n cooldown calls (reached n cooldown calls)) :
    Recorded n cooldown (calls ++ [c]) ((reached n cooldown calls).step c) := by
  simp only [Recorded, openings_snoc, probes_snoc]
  have hmoves := step_moves (reached n cooldown calls) c
  generalize hb' : (reached n cooldown calls).step c = b' at hmoves ⊢
  cases hmoves with
  | passed hclosed => simp [hclosed]
  | refused hrefused => simpa [opening, probe, hrefused, Recorded] using h
  | probed hallowed hdue =>
    have hstate : (reached n cooldown calls).state ≠ breakerClosed := by
      rcases hdue with ⟨hstate, -⟩ | ⟨hstate, -⟩ <;> simp [hstate]
    simp [probe, hallowed, hstate]
  | closed => simp
  | counted hclosed => simp [hclosed]
  | opened hwhy =>
    have hstate : (reached n cooldown calls).state ≠ breakerOpen := by
      rcases hwhy with ⟨hstate, -⟩ | hstate <;> simp [hstate]
    simp [opening_of_opened hstate hb', ConsecutiveFailures.opened]
  | ignored hopen => simpa [opening, hopen] using h.1 hopen

theorem recorded_reached (n cooldown : Int) (calls : List Call) :
    Recorded n cooldown calls (reached n cooldown calls) := by
  refine invariant ?_ ?_ calls
  · simp [Recorded, newConsecutiveFailures]
  · intro calls c h
    exact recorded_step c h

theorem admitted_when_due {n cooldown : Int} {before : List Call} {now recorded : Time}
    (hopening : ∀ t ∈ (openings n cooldown before).getLast?, t + cooldown ≤ now)
    (hprobe : ∀ t ∈ (probes n cooldown before).getLast?, t + cooldown ≤ now) :
    ((reached n cooldown before).allow now recorded).2 = true := by
  obtain ⟨hsince, hlast⟩ := recorded_reached n cooldown before
  have hmoves := step_moves (reached n cooldown before) (.allow now recorded)
  generalize (reached n cooldown before).step (.allow now recorded) = b' at hmoves
  cases hmoves with
  | passed hclosed => simp only [allow, hclosed]
  | probed hallowed => exact hallowed
  | refused _ hearly =>
    rw [reached_cooldown] at hearly
    rcases hearly with ⟨hstate, hearly⟩ | ⟨hstate, hearly⟩
    · exact absurd hearly (Int.not_lt.mpr (hopening _ (hsince hstate)))
    · exact absurd hearly (Int.not_lt.mpr (hprobe _ (hlast hstate)))

/-! ## The discipline -/

theorem Clocked.later {before mid rest : List Call} {c : Call}
    (h : Clocked (before ++ c :: mid ++ rest)) {t : Time} (ht : t ∈ c.readings) :
    ∀ u ∈ mid.flatMap Call.readings, t ≤ u := by
  simp only [Clocked, List.flatMap_append, List.flatMap_cons, List.pairwise_append] at h
  intro u hu
  exact h.1.2.1.2.2 t ht u hu

theorem reached_append_cons (n cooldown : Int) (before : List Call) (c : Call) (mid : List Call) :
    reached n cooldown (before ++ c :: mid) =
      after step ((reached n cooldown before).step c) mid := by
  simp [reached]

/-- From an opening to the next success the breaker counts its cooldown from there on. -/
theorem heldSince_reached {n cooldown : Int} {before mid rest : List Call} {c : Call} {t : Time}
    (hclock : Clocked (before ++ c :: mid ++ rest))
    (hopening : (reached n cooldown before).opening c = some t)
    (hmid : ∀ d ∈ mid, d.succeeds = false) :
    HeldSince t (reached n cooldown (before ++ c :: mid)) := by
  have ht : t ∈ c.readings := by simp [(opening_eq_some hopening).1, Call.readings]
  rw [reached_append_cons]
  exact (heldSince_opening hopening).over hmid (hclock.later ht)

/-- The breaker keeps its discipline in every run, whatever the reports say and whenever
    they come. -/
theorem consecutiveFailures_disciplined {n : Int} (hn : 1 ≤ n) (cooldown : Int)
    {calls : List Call} (hclock : Clocked calls) : Disciplined n cooldown calls where
  opens _ hbefore hafter := opens_at_nth hn hbefore hafter
  cools := by
    intro before c mid now recorded rest t hcalls hopening hmid hallow
    subst hcalls
    have hheld := (heldSince_reached hclock hopening hmid).admitted hallow
    rw [reached_cooldown] at hheld
    exact hheld
  spaces := by
    intro before c first now recorded second now' recorded' rest t hcalls hopening hmid hallow
      hallow'
    subst hcalls
    rw [List.forall_mem_append] at hmid
    have hopened : HeldSince t (reached n cooldown (before ++ c :: first)) := by
      rw [List.append_assoc] at hclock
      exact heldSince_reached hclock hopening hmid.1
    -- from the first probe on, the cooldown is counted from that probe
    have hprobed : HeldSince recorded (reached n cooldown
        (before ++ c :: first ++ .allow now recorded :: second)) := by
      rw [reached_append_cons]
      exact (hopened.probed hallow).over hmid.2 (hclock.later (by simp [Call.readings]))
    have hheld := hprobed.admitted hallow'
    rw [reached_cooldown] at hheld
    exact hheld
  recovers _ hopening hprobe := admitted_when_due hopening hprobe

/-- A run with two failures, a refused attempt, a probe, a late failure and a second probe. -/
def sampleRun : List Call :=
  [.allow 0 0, .report false 1, .report false 2, .allow 5 5, .allow 12 13, .report false 14,
    .allow 20 20, .allow 24 24]

theorem sampleRun_disciplined : Clocked sampleRun ∧ Disciplined 2 10 sampleRun :=
  ⟨by decide, consecutiveFailures_disciplined (by decide) 10 (by decide)⟩

end ConsecutiveFailures

end S3Gateway.S3gw
