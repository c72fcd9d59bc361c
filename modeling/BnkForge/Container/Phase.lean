import BnkForge.Container.Accepted

/-!
# The steps of a phase

What one step of the loop of `_run_phase` can do (`StepRun`), what the steps before it make true where
a phase ends (`runSteps_rule`), and the phases that go through when the runner succeeds.
-/

namespace BnkForge.Container

open Python List

/-! ### The log -/

section

variable (config : EngineConfig) (s : PhaseState)

/-- A state with the same calls, markers and events, whatever is in the log. -/
structure PhaseState.Agrees (s s' : PhaseState) : Prop where
  calls : s'.calls = s.calls
  markers : s'.markers = s.markers
  events : s'.events = s.events

theorem PhaseState.agrees_foldl_sink (lines : List String) :
    s.Agrees (lines.foldl (PhaseState.sink config) s) := by
  induction lines generalizing s with
  | nil => exact ⟨rfl, rfl, rfl⟩
  | cons line lines ih =>
    obtain ⟨hcalls, hmarkers, hevents⟩ := ih (s.sink config line)
    exact ⟨hcalls, hmarkers, hevents⟩

end

/-! ### Attempts -/

section

variable (config : EngineConfig) (around : Surroundings) (spec : StepSpec)
variable (maxAttempts backoff left attempt : Nat) (s : PhaseState)

theorem runStep_agrees :
    { s with calls := s.calls ++ [spec] }.Agrees (runStep config around spec s).1 :=
  PhaseState.agrees_foldl_sink config _ _

def answer (around : Surroundings) (calls : List StepSpec) (spec : StepSpec) : StepResult :=
  (around.runner calls spec).result.getD { success := false, exitCode := 1 }

/-- The result ends the attempts. -/
def Settled (result : StepResult) : Prop := result.success = true ∨ result.timedOut = true

variable {config around spec maxAttempts backoff left attempt s}

theorem attemptStep_settled (h : Settled (answer around s.calls spec)) :
    attemptStep config around spec maxAttempts backoff left attempt s =
      ((runStep config around spec s).1, .ok (answer around s.calls spec, attempt)) := by
  unfold attemptStep
  exact if_pos (Bool.or_eq_true_iff.mpr h)

theorem attemptStep_zero : attemptStep config around spec maxAttempts backoff 0 attempt s =
    ((runStep config around spec s).1, .ok (answer around s.calls spec, attempt)) := by
  unfold attemptStep
  exact ite_self _

/-- What the log says between two attempts. -/
def retryLine (spec : StepSpec) (attempt maxAttempts backoff : Nat) (result : StepResult) : String :=
  "- step '" ++ spec.stepName ++ "' failed (attempt " ++ toString attempt ++ "/" ++
    toString maxAttempts ++ ", exit " ++ toString result.exitCode ++ "); retrying in " ++
    toString backoff ++ "s"

def retryState (config : EngineConfig) (around : Surroundings) (spec : StepSpec)
    (attempt maxAttempts backoff : Nat) (s : PhaseState) : PhaseState :=
  (runStep config around spec s).1.sink config
    (retryLine spec attempt maxAttempts backoff (answer around s.calls spec))

theorem attemptStep_succ (h : ¬Settled (answer around s.calls spec)) :
    attemptStep config around spec maxAttempts backoff (left + 1) attempt s =
      if maxSleepSeconds < backoff then
        (retryState config around spec attempt maxAttempts backoff s, .error .sleepOverflow)
      else attemptStep config around spec maxAttempts backoff left (attempt + 1)
        (retryState config around spec attempt maxAttempts backoff s) := by
  rw [attemptStep]
  exact if_neg fun hdone ↦ h (Bool.or_eq_true_iff.mp hdone)

/-- What the attempts of a step change: they call the runner with it, at least once. -/
structure Attempted (spec : StepSpec) (s s' : PhaseState) : Prop where
  calls : ∃ n, s'.calls = s.calls ++ List.replicate (n + 1) spec
  markers : s'.markers = s.markers
  events : s'.events = s.events

theorem Attempted.of_runStep (config : EngineConfig) (around : Surroundings) (spec : StepSpec)
    (s : PhaseState) : Attempted spec s (runStep config around spec s).1 := by
  obtain ⟨hcalls, hmarkers, hevents⟩ := runStep_agrees config around spec s
  exact ⟨⟨0, hcalls⟩, hmarkers, hevents⟩

theorem Attempted.of_retryState :
    Attempted spec s (retryState config around spec attempt maxAttempts backoff s) := by
  obtain ⟨hcalls, hmarkers, hevents⟩ := Attempted.of_runStep config around spec s
  exact ⟨hcalls, hmarkers, hevents⟩

theorem Attempted.trans {s' s'' : PhaseState} (h : Attempted spec s s') (h' : Attempted spec s' s'') :
    Attempted spec s s'' := by
  obtain ⟨n, hn⟩ := h.calls
  obtain ⟨m, hm⟩ := h'.calls
  refine ⟨⟨n + 1 + m, ?_⟩, h'.markers.trans h.markers, h'.events.trans h.events⟩
  rw [hm, hn, append_assoc, replicate_append_replicate, Nat.add_assoc (n + 1)]

theorem attempted_attemptStep :
    Attempted spec s (attemptStep config around spec maxAttempts backoff left attempt s).1 := by
  induction left generalizing attempt s with
  | zero =>
    rw [attemptStep_zero]
    exact .of_runStep config around spec s
  | succ left ih =>
    by_cases hdone : Settled (answer around s.calls spec)
    · rw [attemptStep_settled hdone]
      exact .of_runStep config around spec s
    · rw [attemptStep_succ hdone]
      split
      · exact .of_retryState
      · exact Attempted.of_retryState.trans ih

theorem Attempted.of_attemptStep {s' : PhaseState} {result : Except EngineError (StepResult × Nat)}
    (h : attemptStep config around spec maxAttempts backoff left attempt s = (s', result)) :
    Attempted spec s s' := by
  rw [show s' = (attemptStep config around spec maxAttempts backoff left attempt s).1 by rw [h]]
  exact attempted_attemptStep

theorem attemptStep_error {e : EngineError}
    (h : (attemptStep config around spec maxAttempts backoff left attempt s).2 = .error e) :
    e = .sleepOverflow ∧ 0 < left ∧ maxSleepSeconds < backoff := by
  induction left generalizing attempt s with
  | zero =>
    rw [attemptStep_zero] at h
    cases h
  | succ left ih =>
    by_cases hdone : Settled (answer around s.calls spec)
    · rw [attemptStep_settled hdone] at h
      cases h
    · rw [attemptStep_succ hdone] at h
      split at h
      · next hmax =>
        cases h
        exact ⟨rfl, left.succ_pos, hmax⟩
      · obtain ⟨he, -, hmax⟩ := ih h
        exact ⟨he, left.succ_pos, hmax⟩

end

/-! ### Steps -/

def HasArgv (step : Value) : Prop :=
  (step.get "args").isList = true ∧ elements (step.get "args") ≠ []

theorem ArgvStep.hasArgv {step : Value} (h : ArgvStep step) : HasArgv step := by
  obtain ⟨first, rest, hargs, -⟩ := h.argv
  rw [HasArgv, hargs]
  exact ⟨rfl, cons_ne_nil _ _⟩

/-- The step is marked `run_once`. -/
def runsOnce (step : Value) : Bool := (step.get "run_once").truthy

section

variable (repr : Value → String)

def markerOf (p : Nat × Value) : String := markerName (stepName repr p.1 p.2)

/-- A step that its marker lets pass. -/
def Skipped (markers : List String) (p : Nat × Value) : Prop :=
  runsOnce p.2 = true ∧ markerOf repr p ∈ markers

instance (markers : List String) (p : Nat × Value) : Decidable (Skipped repr markers p) :=
  inferInstanceAs (Decidable (_ ∧ _))

variable (config : EngineConfig) (around : Surroundings) (ctx : ModuleContext) (shared : Shared)

def gatedState (p : Nat × Value) (s : PhaseState) : PhaseState :=
  { s.sink config ("- skipping step '" ++ stepName repr p.1 p.2 ++ "' (when gate false)") with
    events := s.events ++ [.gated p.1] }

def skippedState (p : Nat × Value) (s : PhaseState) : PhaseState :=
  { s.sink config ("- skipping step '" ++ stepName repr p.1 p.2 ++
      "' (run_once; already completed for this workspace)") with
    events := s.events ++ [.skippedOnce p.1] }

def completedState (p : Nat × Value) (s : PhaseState) : PhaseState :=
  { s with
    executed := s.executed + 1
    markers := if runsOnce p.2 && around.writable p.1 then s.markers ++ [markerOf repr p]
      else s.markers
    events := s.events ++ [.completed p.1] }

def launch (p : Nat × Value) (s : PhaseState) : PhaseState × Outcome :=
  match prepareStep repr config ctx shared p.1 p.2 with
  | .error e => (s, .raised e)
  | .ok (spec, maxAttempts, backoff) =>
    match attemptStep config around spec maxAttempts backoff (maxAttempts - 1) 1 s with
    | (s, .error e) => (s, .raised e)
    | (s, .ok (result, attempts)) =>
      if result.success then (completedState repr around p s, .next)
      else ({ s with executed := s.executed + 1 }, .failed (.stepFailed
        (failureMessage config (stepName repr p.1 p.2) result attempts)))

inductive StepRun (p : Nat × Value) (s : PhaseState) : PhaseState → Outcome → Prop
  | notAnObject (hdict : p.2.isDict = false) : StepRun p s s (.failed (.notAnObject p.1))
  | gateRaised {e : EngineError} (henabled : stepEnabled repr ctx.vars p.2 = .error e) :
    StepRun p s s (.raised e)
  | gated (henabled : stepEnabled repr ctx.vars p.2 = .ok false) :
    StepRun p s (gatedState repr config p s) .next
  | skippedOnce (henabled : stepEnabled repr ctx.vars p.2 = .ok true)
    (hskip : Skipped repr s.markers p) : StepRun p s (skippedState repr config p s) .next
  | noArgs (henabled : stepEnabled repr ctx.vars p.2 = .ok true)
    (hargs : ¬HasArgv p.2) : StepRun p s s (.failed (.noArgs (stepName repr p.1 p.2)))
  | unprepared {e : EngineError} (henabled : stepEnabled repr ctx.vars p.2 = .ok true)
    (hskip : ¬Skipped repr s.markers p)
    (hprepare : prepareStep repr config ctx shared p.1 p.2 = .error e) : StepRun p s s (.raised e)
  | overflow {spec : StepSpec} {maxAttempts backoff : Nat} {s' : PhaseState}
    (henabled : stepEnabled repr ctx.vars p.2 = .ok true) (hskip : ¬Skipped repr s.markers p)
    (hprepare : prepareStep repr config ctx shared p.1 p.2 = .ok (spec, maxAttempts, backoff))
    (hattempted : Attempted spec s s') (hretry : 1 < maxAttempts)
    (hbackoff : maxSleepSeconds < backoff) : StepRun p s s' (.raised .sleepOverflow)
  | completed {spec : StepSpec} {policy : Nat × Nat} {s' : PhaseState}
    (henabled : stepEnabled repr ctx.vars p.2 = .ok true) (hskip : ¬Skipped repr s.markers p)
    (hprepare : prepareStep repr config ctx shared p.1 p.2 = .ok (spec, policy))
    (hattempted : Attempted spec s s') :
    StepRun p s (completedState repr around p s') .next
  | failed {spec : StepSpec} {policy : Nat × Nat} {s' : PhaseState} {message : String}
    (henabled : stepEnabled repr ctx.vars p.2 = .ok true) (hskip : ¬Skipped repr s.markers p)
    (hprepare : prepareStep repr config ctx shared p.1 p.2 = .ok (spec, policy))
    (hattempted : Attempted spec s s') :
    StepRun p s { s' with executed := s'.executed + 1 } (.failed (.stepFailed message))

variable {repr config around ctx shared}

section Forward

variable {p : Nat × Value} {s : PhaseState}

theorem runOne_gateRaised {e : EngineError} (hdict : p.2.isDict = true)
    (henabled : stepEnabled repr ctx.vars p.2 = .error e) :
    runOne repr config around ctx shared p.1 p.2 s = (s, .raised e) := by
  unfold runOne
  rw [if_neg (by simp [hdict]), henabled]

theorem runOne_gated (hdict : p.2.isDict = true)
    (henabled : stepEnabled repr ctx.vars p.2 = .ok false) :
    runOne repr config around ctx shared p.1 p.2 s = (gatedState repr config p s, .next) := by
  unfold runOne
  rw [if_neg (by simp [hdict]), henabled]
  rfl

theorem runOne_skipped (hdict : p.2.isDict = true)
    (henabled : stepEnabled repr ctx.vars p.2 = .ok true) (hskip : Skipped repr s.markers p) :
    runOne repr config around ctx shared p.1 p.2 s = (skippedState repr config p s, .next) := by
  unfold runOne
  rw [if_neg (by simp [hdict]), henabled]
  apply if_pos
  simpa [Skipped, runsOnce, markerOf] using hskip

theorem runOne_noArgs (hdict : p.2.isDict = true) (hargs : ¬HasArgv p.2)
    (henabled : stepEnabled repr ctx.vars p.2 = .ok true) (hskip : ¬Skipped repr s.markers p) :
    runOne repr config around ctx shared p.1 p.2 s =
      (s, .failed (.noArgs (stepName repr p.1 p.2))) := by
  unfold runOne
  rw [if_neg (by simp [hdict]), henabled]
  dsimp only
  rw [if_neg (by simpa [Skipped, runsOnce, markerOf] using hskip)]
  apply if_pos
  by_contra h
  exact hargs (by simpa [HasArgv] using h)

theorem runOne_launched (hdict : p.2.isDict = true) (hargs : HasArgv p.2)
    (henabled : stepEnabled repr ctx.vars p.2 = .ok true) (hskip : ¬Skipped repr s.markers p) :
    runOne repr config around ctx shared p.1 p.2 s = launch repr config around ctx shared p s := by
  unfold runOne
  rw [if_neg (by simp [hdict]), henabled]
  dsimp only
  rw [if_neg (by simpa [Skipped, runsOnce, markerOf] using hskip),
    if_neg (by simpa [HasArgv] using hargs)]
  rfl

end Forward

theorem StepRun.of_launch {p : Nat × Value} {s s' : PhaseState} {outcome : Outcome}
    (henabled : stepEnabled repr ctx.vars p.2 = .ok true) (hskip : ¬Skipped repr s.markers p)
    (hrun : launch repr config around ctx shared p s = (s', outcome)) :
    StepRun repr config around ctx shared p s s' outcome := by
  unfold launch at hrun
  split at hrun
  · next e hprepare =>
    cases hrun
    exact .unprepared henabled hskip hprepare
  · next spec maxAttempts backoff hprepare =>
    split at hrun
    · next s₁ e heq =>
      cases hrun
      obtain ⟨rfl, hleft, hbackoff⟩ := attemptStep_error (congrArg Prod.snd heq)
      exact .overflow henabled hskip hprepare (.of_attemptStep heq) (by omega) hbackoff
    · next s₁ result attempts heq =>
      split at hrun
      · cases hrun
        exact .completed henabled hskip hprepare (.of_attemptStep heq)
      · cases hrun
        exact .failed henabled hskip hprepare (.of_attemptStep heq)

theorem StepRun.of_runOne {p : Nat × Value} {s s' : PhaseState} {outcome : Outcome}
    (hrun : runOne repr config around ctx shared p.1 p.2 s = (s', outcome)) :
    StepRun repr config around ctx shared p s s' outcome := by
  cases hdict : p.2.isDict with
  | false =>
    rw [runOne, if_pos (by simp [hdict])] at hrun
    cases hrun
    exact .notAnObject hdict
  | true =>
    cases henabled : stepEnabled repr ctx.vars p.2 with
    | error e =>
      rw [runOne_gateRaised hdict henabled] at hrun
      cases hrun
      exact .gateRaised henabled
    | ok enabled =>
      cases enabled with
      | false =>
        rw [runOne_gated hdict henabled] at hrun
        cases hrun
        exact .gated henabled
      | true =>
        by_cases hskip : Skipped repr s.markers p
        · rw [runOne_skipped hdict henabled hskip] at hrun
          cases hrun
          exact .skippedOnce henabled hskip
        by_cases hargs : HasArgv p.2
        · rw [runOne_launched hdict hargs henabled hskip] at hrun
          exact .of_launch henabled hskip hrun
        · rw [runOne_noArgs hdict hargs henabled hskip] at hrun
          cases hrun
          exact .noArgs henabled hargs

/-! ### Runs -/

private theorem runSteps_from {all steps : List (Nat × Value)}
    {motive : List (Nat × Value) → PhaseState → Prop}
    (hstep : ∀ done p after s s', all = done ++ p :: after → motive done s →
      StepRun repr config around ctx shared p s s' .next → motive (done ++ [p]) s')
    {done : List (Nat × Value)} {s s' : PhaseState} {outcome : Outcome} (hall : all = done ++ steps)
    (hmotive : motive done s) (h : runSteps repr config around ctx shared steps s = (s', outcome)) :
    (outcome = .next ∧ motive all s') ∨
      ∃ before p after s₁, all = before ++ p :: after ∧ motive before s₁ ∧
        outcome ≠ .next ∧ StepRun repr config around ctx shared p s₁ s' outcome := by
  induction steps generalizing done s with
  | nil =>
    cases h
    exact .inl ⟨rfl, by rwa [hall, append_nil]⟩
  | cons p steps ih =>
    obtain ⟨index, step⟩ := p
    rw [runSteps] at h
    split at h
    · next s₁ heq =>
      have hone : StepRun repr config around ctx shared (index, step) s s₁ .next := .of_runOne heq
      have hnext := hstep done _ steps s s₁ hall hmotive hone
      exact ih (by rw [hall, append_assoc, singleton_append]) hnext h
    · next s₁ outcome' hne heq =>
      cases h
      refine .inr ⟨done, (index, step), steps, s, hall, hmotive, ?_, .of_runOne heq⟩
      rintro rfl
      exact hne rfl

theorem runSteps_rule {steps : List (Nat × Value)}
    {motive : List (Nat × Value) → PhaseState → Prop}
    (hstep : ∀ done p after s s', steps = done ++ p :: after → motive done s →
      StepRun repr config around ctx shared p s s' .next → motive (done ++ [p]) s')
    {s s' : PhaseState} {outcome : Outcome} (hmotive : motive [] s)
    (h : runSteps repr config around ctx shared steps s = (s', outcome)) :
    (outcome = .next ∧ motive steps s') ∨
      ∃ before p after s₁, steps = before ++ p :: after ∧ motive before s₁ ∧
        outcome ≠ .next ∧ StepRun repr config around ctx shared p s₁ s' outcome :=
  runSteps_from hstep rfl hmotive h

theorem runSteps_append (xs ys : List (Nat × Value)) (s : PhaseState) :
    runSteps repr config around ctx shared (xs ++ ys) s =
      match runSteps repr config around ctx shared xs s with
      | (s', .next) => runSteps repr config around ctx shared ys s'
      | (s', outcome) => (s', outcome) := by
  induction xs generalizing s with
  | nil => rfl
  | cons p xs ih =>
    obtain ⟨index, step⟩ := p
    rw [cons_append, runSteps, runSteps]
    split
    · exact ih _
    · next hne heq =>
      split
      · next h => cases h; exact absurd rfl hne
      · next h => exact h

section

variable {p : Nat × Value} {s s' : PhaseState} {outcome : Outcome}

theorem Attempted.calls_subset {spec : StepSpec} (h : Attempted spec s s') : s.calls ⊆ s'.calls := by
  obtain ⟨n, hn⟩ := h.calls
  rw [hn]
  exact subset_append_left _ _

theorem StepRun.calls_subset (h : StepRun repr config around ctx shared p s s' outcome) :
    s.calls ⊆ s'.calls := by
  cases h with
  | overflow _ _ _ hattempted => exact hattempted.calls_subset
  | completed _ _ _ hattempted =>
    have hcalls := hattempted.calls_subset
    exact hcalls
  | failed _ _ _ hattempted =>
    have hcalls := hattempted.calls_subset
    exact hcalls
  | _ => exact List.Subset.refl _

theorem StepRun.markers_subset (h : StepRun repr config around ctx shared p s s' outcome) :
    s.markers ⊆ s'.markers := by
  cases h with
  | overflow _ _ _ hattempted =>
    rw [hattempted.markers]
    exact List.Subset.refl _
  | completed _ _ _ hattempted =>
    rw [completedState, ← hattempted.markers]
    dsimp only
    split
    · exact subset_append_left _ _
    · exact List.Subset.refl _
  | failed _ _ _ hattempted =>
    rw [← hattempted.markers]
    exact List.Subset.refl _
  | _ => exact List.Subset.refl _

theorem runSteps_calls_subset {steps : List (Nat × Value)} (s : PhaseState) :
    s.calls ⊆ (runSteps repr config around ctx shared steps s).1.calls := by
  rcases hrun : runSteps repr config around ctx shared steps s with ⟨s', outcome⟩
  have hrule := runSteps_rule (motive := fun _ s₁ ↦ s.calls ⊆ s₁.calls)
    (fun _ _ _ _ _ _ hs hrun ↦ List.Subset.trans hs hrun.calls_subset) (List.Subset.refl _) hrun
  obtain ⟨-, hs⟩ | ⟨_, _, _, s₁, -, hs, -, hrun⟩ := hrule
  · exact hs
  · exact List.Subset.trans hs hrun.calls_subset

end

/-! ### Phases that go through -/

variable (repr config ctx shared) in
/-- A step that a phase gets past when the runner succeeds, with these markers in the workspace. -/
def Passes (markers : List String) (p : Nat × Value) : Prop :=
  stepEnabled repr ctx.vars p.2 = .ok false ∨
    stepEnabled repr ctx.vars p.2 = .ok true ∧
      (Skipped repr markers p ∨ ∃ call, prepareStep repr config ctx shared p.1 p.2 = .ok call)

variable (repr config ctx shared) in
/-- A phase gets past the steps with `n` calls, if the runner succeeds on these. -/
def GoesThrough (markers : List String) (steps : List (Nat × Value)) (n : Nat) : Prop :=
  ∀ around s, (∀ i, around.writable i = false) → s.markers = markers →
    (∀ calls spec, calls.length < s.calls.length + n → (answer around calls spec).success = true) →
    ∃ s', runSteps repr config around ctx shared steps s = (s', .next) ∧
      s'.markers = markers ∧ s'.calls.length = s.calls.length + n

section

variable {p : Nat × Value} {markers : List String} {steps : List (Nat × Value)} {n : Nat}

theorem GoesThrough.cons_quiet (h : GoesThrough repr config ctx shared markers steps n)
    (hone : ∀ around s, s.markers = markers → ∃ s₁,
      runOne repr config around ctx shared p.1 p.2 s = (s₁, .next) ∧ s₁.markers = markers ∧
        s₁.calls = s.calls) : GoesThrough repr config ctx shared markers (p :: steps) n := by
  intro around s hwritable hs hanswer
  obtain ⟨s₁, hrun, hs₁, hcalls⟩ := hone around s hs
  rw [runSteps, hrun]
  rw [← hcalls] at hanswer ⊢
  exact h around s₁ hwritable hs₁ hanswer

theorem runOne_succeeds {spec : StepSpec} {policy : Nat × Nat} (h : ArgvStep p.2)
    (henabled : stepEnabled repr ctx.vars p.2 = .ok true)
    (hprepare : prepareStep repr config ctx shared p.1 p.2 = .ok (spec, policy))
    (around : Surroundings) (s : PhaseState) (hskip : ¬Skipped repr s.markers p)
    (hwritable : around.writable p.1 = false)
    (hanswer : (answer around s.calls spec).success = true) :
    ∃ s', runOne repr config around ctx shared p.1 p.2 s = (s', .next) ∧
      s'.markers = s.markers ∧ s'.calls = s.calls ++ [spec] := by
  obtain ⟨hcalls, hmarkers, -⟩ := runStep_agrees config around spec s
  refine ⟨completedState repr around p (runStep config around spec s).1, ?_, ?_, hcalls⟩
  · rw [runOne_launched h.dict h.hasArgv henabled hskip, launch, hprepare]
    dsimp only
    rw [attemptStep_settled (.inl hanswer)]
    exact if_pos hanswer
  · simpa [completedState, hwritable] using hmarkers

theorem GoesThrough.cons_call {spec : StepSpec} {policy : Nat × Nat}
    (h : GoesThrough repr config ctx shared markers steps n) (hp : ArgvStep p.2)
    (henabled : stepEnabled repr ctx.vars p.2 = .ok true) (hskip : ¬Skipped repr markers p)
    (hprepare : prepareStep repr config ctx shared p.1 p.2 = .ok (spec, policy)) :
    GoesThrough repr config ctx shared markers (p :: steps) (n + 1) := by
  intro around s hwritable hs hanswer
  obtain ⟨s₁, hrun, hmarkers, hcalls⟩ := runOne_succeeds hp henabled hprepare around s
    (by rwa [hs]) (hwritable p.1) (hanswer s.calls spec (by omega))
  have hlength : s₁.calls.length = s.calls.length + 1 := by
    rw [hcalls, length_append, length_singleton]
  obtain ⟨s', hrest, hs', hcount⟩ := h around s₁ hwritable (hmarkers.trans hs)
    (fun calls spec h ↦ hanswer calls spec (by omega))
  rw [runSteps, hrun]
  exact ⟨s', hrest, hs', by omega⟩

theorem goesThrough_of_passes (hargv : ∀ p ∈ steps, ArgvStep p.2)
    (hpass : ∀ p ∈ steps, Passes repr config ctx shared markers p) :
    ∃ n, GoesThrough repr config ctx shared markers steps n := by
  induction steps with
  | nil => exact ⟨0, fun around s _ hs _ ↦ ⟨s, rfl, hs, rfl⟩⟩
  | cons p steps ih =>
    obtain ⟨n, hn⟩ := ih (fun q hq ↦ hargv q (mem_cons_of_mem _ hq))
      (fun q hq ↦ hpass q (mem_cons_of_mem _ hq))
    have hp := hargv p mem_cons_self
    obtain hgate | ⟨henabled, hcall⟩ := hpass p mem_cons_self
    · exact ⟨n, hn.cons_quiet fun around s hs ↦ ⟨_, runOne_gated hp.dict hgate, hs, rfl⟩⟩
    · by_cases hskip : Skipped repr markers p
      · refine ⟨n, hn.cons_quiet fun around s hs ↦ ⟨_, runOne_skipped hp.dict henabled ?_, hs, rfl⟩⟩
        rwa [hs]
      · obtain ⟨⟨spec, policy⟩, hprepare⟩ := hcall.resolve_left hskip
        exact ⟨n + 1, hn.cons_call hp henabled hskip hprepare⟩

end

/-! ### Operations -/

def stepsOf (manifest : Value) (op : Operation) : List (Nat × Value) :=
  indexed (elements (stepSetOf manifest op))

section

variable {op : Operation}

theorem Accepted.validateStep (h : Accepted ctx.packManifest) {p : Nat × Value}
    (hp : p ∈ stepsOf ctx.packManifest op) :
    ∃ path, Container.validateStep path p.2 = .ok () := by
  have hmem := snd_mem_of_mem_indexed hp
  obtain hnone | ⟨step, rest, hlist, hsteps⟩ := h.steps op
  · rw [hnone] at hmem
    cases hmem
  · rw [hlist] at hmem
    exact hsteps _ hmem

theorem Accepted.argvStep (h : Accepted ctx.packManifest) {p : Nat × Value}
    (hp : p ∈ stepsOf ctx.packManifest op) : ArgvStep p.2 := by
  obtain ⟨path, hpath⟩ := h.validateStep hp
  exact .of_validateStep hpath

variable (repr config) in
theorem Accepted.runOperation (h : Accepted ctx.packManifest) (op : Operation) (around : Surroundings) :
    (stepsOf ctx.packManifest op = [] ∧ Container.runOperation repr config around ctx op =
      ({ markers := around.markers }, .ok (noStepSet op ctx.packManifest))) ∨
    Container.runOperation repr config around ctx op =
      runPhase repr config around (contextOf ctx op) (elements (stepSetOf ctx.packManifest op))
        (op matches .apply) := by
  obtain hnone | ⟨step, rest, hlist, -⟩ := h.steps op
  · refine .inl ⟨by rw [stepsOf, hnone]; rfl, ?_⟩
    unfold Container.runOperation
    rw [hnone]
  · right
    unfold Container.runOperation
    rw [hlist]
    rfl

theorem Accepted.calls_runOperation (h : Accepted ctx.packManifest) (op : Operation)
    (around : Surroundings) {shared : Shared}
    (hshared : resolveShared repr (contextOf ctx op) = .ok shared) :
    (Container.runOperation repr config around ctx op).1.calls =
      (runSteps repr config around (contextOf ctx op) shared (stepsOf ctx.packManifest op)
        { markers := around.markers }).1.calls := by
  obtain ⟨hnil, hrun⟩ | hrun := h.runOperation repr config op around
  · rw [hrun, hnil]
    rfl
  · rw [hrun, runPhase, hshared]
    dsimp only
    rw [stepsOf]
    split
    · next heq => rw [heq]
    · next heq => rw [heq]
    · next heq => rw [heq]

theorem Accepted.calls_runOperation_error (h : Accepted ctx.packManifest) (op : Operation)
    (around : Surroundings) {e : EngineError}
    (hshared : resolveShared repr (contextOf ctx op) = .error e) :
    (Container.runOperation repr config around ctx op).1.calls = [] := by
  obtain ⟨-, hrun⟩ | hrun := h.runOperation repr config op around
  · rw [hrun]
  · rw [hrun, runPhase, hshared]

end

end

end BnkForge.Container
