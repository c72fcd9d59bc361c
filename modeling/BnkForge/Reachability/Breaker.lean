import Mathlib.Data.Rat.Defs
import Mathlib.Algebra.Order.Ring.Rat
import BnkForge.Lib.Transition

/-!
# The circuit breaker of a target

`_Breaker` (`backend/services/reachability/breaker.py:40–111`), the calls that `with_breaker`
admits (`:166–277`) and the outcomes that `record_real_call` feeds into it, of calls and of
probes (`backend/services/reachability/registry.py:187–211`, `:323–337`). Calls overlap freely
and events come at any time on the monotonic clock.
-/

namespace BnkForge.Reachability

open Transition

/-! ### The breaker -/

/-- `BreakerState`. -/
inductive BreakerState
  | closed | open | halfOpen
  deriving DecidableEq, Repr

/-- `ErrorCategory`. -/
inductive ErrorCategory
  | network | auth | authz | target | timeout | slow
  deriving DecidableEq, Repr

/-- `_Breaker` without its lock and the target's name. -/
structure Breaker where
  failureThreshold : Int := 5
  sleepWindowSeconds : Int := 30
  state : BreakerState := .closed
  consecutiveFailures : Nat := 0
  openedAt : ℚ := 0
  halfOpenInflight : Bool := false
  lastSuccessAt : Option ℚ := none
  deriving DecidableEq, Repr

def Breaker.Elapsed (b : Breaker) (now : ℚ) : Prop := (b.sleepWindowSeconds : ℚ) ≤ now - b.openedAt

instance (b : Breaker) (now : ℚ) : Decidable (b.Elapsed now) :=
  inferInstanceAs (Decidable (_ ≤ _))

/-- `can_attempt` once the breaker is half open. -/
def attemptHalfOpen (b : Breaker) : Bool × Breaker :=
  if b.halfOpenInflight then (false, b) else (true, { b with halfOpenInflight := true })

/-- `can_attempt`. -/
def canAttempt (now : ℚ) (b : Breaker) : Bool × Breaker :=
  match b.state with
  | .closed => (true, b)
  | .open =>
    if b.Elapsed now then attemptHalfOpen { b with state := .halfOpen, halfOpenInflight := false }
    else (false, b)
  | .halfOpen => attemptHalfOpen b

/-- `record_success`. -/
def recordSuccess (now : ℚ) (b : Breaker) : Breaker :=
  { b with
    consecutiveFailures := 0
    lastSuccessAt := some now
    halfOpenInflight := false
    state := .closed }

/-- `record_failure`: failures of authentication and authorization are dropped. -/
def recordFailure (now : ℚ) (category : Option ErrorCategory) (b : Breaker) : Breaker :=
  if category = some .auth ∨ category = some .authz then b
  else
    let failures := b.consecutiveFailures + 1
    let b := { b with consecutiveFailures := failures, halfOpenInflight := false }
    if b.state = .halfOpen ∨ b.failureThreshold ≤ (failures : Int) then
      { b with state := .open, openedAt := now }
    else b

/-- How a call or a probe ended. -/
inductive Outcome
  | success (latencyMs : ℚ)
  | failure (category : Option ErrorCategory)
  deriving DecidableEq, Repr

/-- `record_real_call`: a slow success is a failure. -/
def recordRealCall (slowThreshold now : ℚ) (b : Breaker) : Outcome → Breaker
  | .success latencyMs =>
    if slowThreshold ≤ latencyMs then recordFailure now (some .slow) b else recordSuccess now b
  | .failure category => recordFailure now category b

/-! ### Calls in flight -/

/-- The breaker of a target, the number of calls in flight that were admitted as the trial of a
half-open breaker, and the number of the others. -/
structure Target where
  breaker : Breaker
  slowThreshold : ℚ := 5000
  trials : Nat := 0
  others : Nat := 0
  deriving DecidableEq, Repr

inductive TargetEvent
  /-- A call asks to be let through. -/
  | attempt (now : ℚ)
  /-- A call in flight ends. -/
  | finish (trial : Bool) (now : ℚ) (outcome : Outcome)
  /-- A probe ends, which asked nobody. -/
  | observe (now : ℚ) (outcome : Outcome)
  deriving DecidableEq, Repr

def targetStep (s : Target) : TargetEvent → Option Target
  | .attempt now =>
    match canAttempt now s.breaker with
    | (false, b) => some { s with breaker := b }
    | (true, b) =>
      if b.state = .halfOpen then some { s with breaker := b, trials := s.trials + 1 }
      else some { s with breaker := b, others := s.others + 1 }
  | .finish true now outcome =>
    if s.trials = 0 then none
    else some { s with
      breaker := recordRealCall s.slowThreshold now s.breaker outcome, trials := s.trials - 1 }
  | .finish false now outcome =>
    if s.others = 0 then none
    else some { s with
      breaker := recordRealCall s.slowThreshold now s.breaker outcome, others := s.others - 1 }
  | .observe now outcome =>
    some { s with breaker := recordRealCall s.slowThreshold now s.breaker outcome }

/-- At most one trial is in flight, and where no call is, the breaker lets the next one through
once its sleep window is over. -/
structure Sound (s : Target) : Prop where
  exclusive : s.trials ≤ 1
  live : s.trials = 0 → s.others = 0 → ∀ now, (s.breaker.state = .open → s.breaker.Elapsed now) →
    (canAttempt now s.breaker).1 = true

def Outcome.counts : Outcome → Bool
  | .success _ => true
  | .failure category => category != some .auth && category != some .authz

def Orderly (s : Target) : TargetEvent → Prop
  | .attempt _ => True
  | .finish true _ outcome => outcome.counts = true
  | .finish false _ outcome | .observe _ outcome => 0 < s.trials → outcome.counts = false

instance (s : Target) : (e : TargetEvent) → Decidable (Orderly s e)
  | .attempt _ => inferInstanceAs (Decidable True)
  | .finish true _ _ => inferInstanceAs (Decidable (_ = _))
  | .finish false _ _ | .observe _ _ => inferInstanceAs (Decidable (_ → _))

/-! ### Orderly runs -/

section

variable {b : Breaker} {now slow : ℚ} {outcome : Outcome} {s t : Target} {e : TargetEvent}

theorem recordRealCall_of_not_counts (h : outcome.counts = false) :
    recordRealCall slow now b outcome = b := by
  cases outcome with
  | success => cases h
  | failure category =>
    unfold recordRealCall recordFailure
    refine if_pos (or_iff_not_imp_left.mpr ?_)
    simpa [Outcome.counts] using h

private theorem recordFailure_state {category : Option ErrorCategory}
    (h : ¬ (category = some .auth ∨ category = some .authz)) :
    (recordFailure now category b).state ≠ .halfOpen := by
  unfold recordFailure
  rw [if_neg h]
  dsimp only
  split
  · nofun
  · next hstay => exact fun hs ↦ hstay (.inl hs)

theorem recordRealCall_state (h : outcome.counts = true) :
    (recordRealCall slow now b outcome).state ≠ .halfOpen := by
  cases outcome with
  | success latencyMs =>
    unfold recordRealCall
    dsimp only
    split
    · exact recordFailure_state (by simp)
    · nofun
  | failure category =>
    refine recordFailure_state ?_
    simpa [Outcome.counts] using h

/-- The breaker is half open exactly while its one trial is in flight. -/
structure Tracked (s : Target) : Prop where
  halfOpen : s.breaker.state = .halfOpen → s.breaker.halfOpenInflight = true ∧ s.trials = 1
  others : s.breaker.state ≠ .halfOpen → s.trials = 0

private theorem tracked_record (trials others : Nat)
    (h : Tracked { s with trials := trials, others := others })
    (hcounts : outcome.counts = true → trials = 0) :
    Tracked { s with
      breaker := recordRealCall slow now s.breaker outcome, trials := trials, others := others } := by
  cases hc : outcome.counts with
  | false =>
    rw [recordRealCall_of_not_counts hc]
    exact h
  | true => exact ⟨fun hs ↦ absurd hs (recordRealCall_state hc), fun _ ↦ hcounts hc⟩

private theorem canAttempt_open (hstate : b.state = .open) :
    canAttempt now b = if b.Elapsed now then
      (true, { b with state := .halfOpen, halfOpenInflight := true }) else (false, b) := by
  unfold canAttempt
  rw [hstate]
  rfl

private theorem tracked_attempt (h : Tracked s) (hst : targetStep s (.attempt now) = some t) :
    Tracked t := by
  unfold targetStep at hst
  dsimp only at hst
  cases hstate : s.breaker.state with
  | closed =>
    have hne : s.breaker.state ≠ .halfOpen := by rw [hstate]; nofun
    have hattempt : canAttempt now s.breaker = (true, s.breaker) := by rw [canAttempt, hstate]
    rw [hattempt] at hst
    dsimp only at hst
    rw [if_neg hne] at hst
    cases hst
    exact ⟨fun hs ↦ absurd hs hne, h.others⟩
  | «open» =>
    have hne : s.breaker.state ≠ .halfOpen := by rw [hstate]; nofun
    rw [canAttempt_open hstate] at hst
    split_ifs at hst
    · cases hst
      exact ⟨fun _ ↦ ⟨rfl, by rw [h.others hne]⟩, fun hs ↦ absurd rfl hs⟩
    · cases hst
      exact ⟨fun hs ↦ absurd hs hne, h.others⟩
  | halfOpen =>
    have hattempt : canAttempt now s.breaker = (false, s.breaker) := by
      rw [canAttempt, hstate]
      exact if_pos (h.halfOpen hstate).1
    rw [hattempt] at hst
    cases hst
    exact h

private theorem tracked_step (h : Tracked s) (hok : Orderly s e) (hst : targetStep s e = some t) :
    Tracked t := by
  cases e with
  | attempt now => exact tracked_attempt h hst
  | finish trial now outcome =>
    cases trial with
    | true =>
      simp only [targetStep] at hst
      split at hst
      · cases hst
      · next htrials =>
        cases hst
        have hone : s.trials = 1 := by
          by_contra hne
          by_cases hs : s.breaker.state = .halfOpen
          · exact hne (h.halfOpen hs).2
          · exact htrials (h.others hs)
        refine ⟨fun hs ↦ absurd hs (recordRealCall_state hok), fun _ ↦ ?_⟩
        rw [hone]
    | false =>
      simp only [targetStep] at hst
      split at hst
      · cases hst
      · cases hst
        refine tracked_record _ _ ⟨h.halfOpen, h.others⟩ fun hc ↦ ?_
        by_contra hpos
        have := hok (Nat.pos_of_ne_zero hpos)
        rw [hc] at this
        cases this
  | observe now outcome =>
    cases hst
    refine tracked_record s.trials s.others h fun hc ↦ ?_
    by_contra hpos
    have := hok (Nat.pos_of_ne_zero hpos)
    rw [hc] at this
    cases this

private theorem sound_of_tracked (h : Tracked s) : Sound s where
  exclusive := by
    by_cases hs : s.breaker.state = .halfOpen
    · exact (h.halfOpen hs).2.le
    · rw [h.others hs]
      exact Nat.zero_le 1
  live htrials _ now hwindow := by
    unfold canAttempt
    cases hstate : s.breaker.state with
    | closed => rfl
    | «open» =>
      dsimp only
      rw [if_pos (hwindow hstate)]
      rfl
    | halfOpen =>
      rw [(h.halfOpen hstate).2] at htrials
      cases htrials

end

/-- From a closed breaker, in every run in which the trial of a half-open breaker ends in an
outcome that counts and no other outcome counts meanwhile, at most one trial is in flight in every
state reached, and with no call in flight the breaker lets the next one through once its sleep
window is over. -/
theorem breaker_sound (failureThreshold sleepWindowSeconds : Int) (slowThreshold : ℚ)
    (es : List TargetEvent) (t : Target)
    (hrun : Run targetStep Orderly
      { breaker := { failureThreshold, sleepWindowSeconds }, slowThreshold } es t) : Sound t := by
  have h : Tracked t := hrun.invariant ⟨nofun, fun _ ↦ rfl⟩ fun _ _ _ ↦ tracked_step
  exact sound_of_tracked h

def brittleTarget : Target := { breaker := { failureThreshold := 1 } }

/-- A failure opens the breaker and the trial after the window closes it. -/
theorem breaker_sound_recovery :
    let closedAgain : Target :=
      { breaker := { failureThreshold := 1, openedAt := 1, lastSuccessAt := some 32 } }
    Run targetStep Orderly brittleTarget
      [.attempt 0, .finish false 1 (.failure (some .network)), .attempt 31,
        .finish true 32 (.success 10)] closedAgain ∧ Sound closedAgain := by
  intro closedAgain
  have hrun : Run targetStep Orderly brittleTarget
      [.attempt 0, .finish false 1 (.failure (some .network)), .attempt 31,
        .finish true 32 (.success 10)] closedAgain :=
    Run.iff_exec.mpr (by decide +kernel)
  exact ⟨hrun, breaker_sound 1 30 5000 _ _ hrun⟩

/-- The breaker after a trial that was not authorized. -/
def wedgedTarget : Target where
  breaker :=
    { failureThreshold := 1, openedAt := 1, state := .halfOpen, consecutiveFailures := 1,
      halfOpenInflight := true }

/-- The breaker after a second trial, let in because the late outcome of an older call reopened
the breaker under the first. -/
def doubledTarget : Target where
  breaker :=
    { failureThreshold := 1, openedAt := 32, state := .halfOpen, consecutiveFailures := 2,
      halfOpenInflight := true }
  trials := 2

/-- A trial that is not authorized leaves a breaker that lets nothing through any more; and the
late outcome of a call admitted before the breaker opened makes room for a second trial. -/
theorem breaker_wedges_and_doubles :
    (¬ ∀ es t, Run targetStep Free brittleTarget es t → t.trials = 0 → t.others = 0 → ∀ now,
      (t.breaker.state = .open → t.breaker.Elapsed now) → (canAttempt now t.breaker).1 = true) ∧
    ¬ ∀ es t, Run targetStep Free brittleTarget es t → t.trials ≤ 1 := by
  constructor
  · intro h
    have hrun : exec targetStep brittleTarget
        [.attempt 0, .finish false 1 (.failure (some .network)), .attempt 31,
          .finish true 32 (.failure (some .authz))] = some wedgedTarget := by
      decide +kernel
    have hlive := h _ _ (Run.free_iff_exec.mpr hrun) rfl rfl 1000 nofun
    exact absurd hlive (by decide)
  · intro h
    have hrun : exec targetStep brittleTarget
        [.attempt 0, .attempt 0, .finish false 1 (.failure (some .network)), .attempt 31,
          .finish false 32 (.failure (some .timeout)), .attempt 62] = some doubledTarget := by
      decide +kernel
    have hone := h _ _ (Run.free_iff_exec.mpr hrun)
    exact absurd hone (by decide)

end BnkForge.Reachability
