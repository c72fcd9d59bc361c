import BnkForge.Container.Phase
import BnkForge.Lib.ExceptResult
import Mathlib.Algebra.Order.BigOperators.Group.List
import Mathlib.Data.ENat.Lattice
import Mathlib.Order.CompleteBooleanAlgebra
import Mathlib.Order.CompletePartialOrder

/-!
# The time limits of container tasks

`_derive_container_time_limits` (`backend/services/execution/task_dispatch.py:207–291`) gives a task
its own limits where the steps of its manifest may take longer than the global one. Against it stands
the time that a phase of the engine takes. `run_step` (`container_runner.py:602–870`) bounds a step by
its `timeout_seconds` twice, for pulling the image and for running it, and the budget counts it once
(`limitsCover_iff`).
-/

namespace BnkForge.Container

open Python List

/-! ### The runner's clock -/

/-- What Docker does with a call: the seconds that the pull needs, whether the image is refused then,
the seconds until the container stops and the code it stops with. A container that does not start
stops at once, and an endpoint that is lost is one that stopped with 125. -/
structure DockerCall where
  pullSeconds : Nat := 0
  refused : Bool := false
  runSeconds : Nat := 0
  exitCode : Int := 0
  lines : List String := []
  deriving DecidableEq, Repr

/-- The timeout of the pull: `spec.timeout_seconds or 1800`. -/
def pullTimeout (timeout : Int) : Int := if timeout = 0 then 1800 else timeout

/-- `DockerRunner.run_step` with the seconds it takes, where a pull that takes too long raises and a
container that runs too long is killed; without a timeout it may run for ever. -/
def dockerStep (spec : StepSpec) (docker : DockerCall) : Reply × Nat :=
  if pullTimeout spec.timeoutSeconds < docker.pullSeconds then
    (⟨docker.lines, none⟩, (pullTimeout spec.timeoutSeconds).toNat)
  else if docker.refused then
    (⟨docker.lines, some { success := false, exitCode := 126 }⟩, docker.pullSeconds)
  else if spec.timeoutSeconds ≠ 0 ∧ spec.timeoutSeconds < docker.runSeconds then
    (⟨docker.lines, some { success := false, exitCode := 124, timedOut := true }⟩,
      docker.pullSeconds + spec.timeoutSeconds.toNat)
  else
    (⟨docker.lines, some { success := docker.exitCode == 0, exitCode := docker.exitCode }⟩,
      docker.pullSeconds + docker.runSeconds)

def Surroundings.onDocker (around : Surroundings)
    (docker : List StepSpec → StepSpec → DockerCall) : Surroundings :=
  { around with runner := fun calls spec ↦ (dockerStep spec (docker calls spec)).1 }

section Clock

variable (repr : Value → String) (config : EngineConfig) (around : Surroundings)
variable (docker : List StepSpec → StepSpec → DockerCall) (ctx : ModuleContext) (shared : Shared)

def attemptSeconds (spec : StepSpec) (maxAttempts backoff : Nat) : Nat → Nat → PhaseState → Nat
  | left, attempt, s =>
    let result := answer around s.calls spec
    (dockerStep spec (docker s.calls spec)).2 +
      if result.success || result.timedOut then 0
      else
        match left with
        | 0 => 0
        | left + 1 =>
          if maxSleepSeconds < backoff then 0
          else backoff + attemptSeconds spec maxAttempts backoff left (attempt + 1)
            (retryState config around spec attempt maxAttempts backoff s)

def stepSeconds (p : Nat × Value) (s : PhaseState) : Nat :=
  if p.2.isDict then
    match stepEnabled repr ctx.vars p.2 with
    | .ok true =>
      if Skipped repr s.markers p then 0
      else if !(p.2.get "args").isList || (elements (p.2.get "args")).isEmpty then 0
      else
        match prepareStep repr config ctx shared p.1 p.2 with
        | .ok (spec, maxAttempts, backoff) =>
          attemptSeconds config around docker spec maxAttempts backoff (maxAttempts - 1) 1 s
        | .error _ => 0
    | _ => 0
  else 0

def runSeconds : List (Nat × Value) → PhaseState → Nat
  | [], _ => 0
  | p :: steps, s =>
    stepSeconds repr config around docker ctx shared p s +
      match runOne repr config around ctx shared p.1 p.2 s with
      | (s', .next) => runSeconds steps s'
      | _ => 0

def operationSeconds (op : Operation) : Nat :=
  match resolveShared repr (contextOf ctx op) with
  | .error _ => 0
  | .ok shared =>
    runSeconds repr config (around.onDocker docker) docker (contextOf ctx op) shared
      (stepsOf ctx.packManifest op) { markers := around.markers }

/-- The longest that the phase of an operation can take, whatever Docker does. -/
noncomputable def worstCase (op : Operation) : ℕ∞ :=
  ⨆ docker : List StepSpec → StepSpec → DockerCall,
    (operationSeconds repr config around docker ctx op : ℕ∞)

end Clock

/-! ### The derived limits -/

/-- `task_time_limit` (`backend/celery_app.py:59`). -/
def globalHard : Int := 7500

/-- `visibility_timeout` (`backend/celery_app.py:112`). -/
def visibilityTimeout : Int := 10800

def limitCeiling : Int := visibilityTimeout - 600

/-- `_safe_int`. -/
def safeInt (value : Value) (default : Int) : Except IntError Int :=
  match value.toInt with
  | .ok n => .ok n
  | .error .overflowError => .error .overflowError
  | .error _ => .ok default

def stepBudget (step : Value) : Except IntError Int := do
  let timeout ← safeInt (step.get "timeout_seconds") 1800
  let retry := if (step.get "retry").isDict then step.get "retry" else .dict []
  let attempts ← safeInt (retry.get "max_attempts") 1
  let backoff ← safeInt (retry.get "backoff_seconds") 0
  .ok (timeout * max 1 attempts + max 0 backoff * (max 1 attempts - 1))

def stepsBudget : List Value → Except IntError Int
  | [] => .ok 0
  | step :: steps =>
    if step.isDict then do
      let seconds ← stepBudget step
      let rest ← stepsBudget steps
      .ok (seconds + rest)
    else stepsBudget steps

def budgetSteps (manifest : Value) : Operation → Value
  | .action name _ =>
    let declared := (manifest.get "actions").orElse (.dict [])
    let block := if declared.isDict then declared.get name else .none
    if block.isDict then (block.orElse (.dict [])).get "steps" else .none
  | op => (Value.dict (canonicalStepSets manifest)).get op.phase

/-- The arguments `time_limit` and `soft_time_limit` of a task. -/
structure TimeLimits where
  hard : Int
  soft : Int
  deriving DecidableEq, Repr

/-- `_derive_container_time_limits`: `none` for the global limits. -/
def deriveTimeLimits (manifest : Value) (op : Operation) : Except IntError (Option TimeLimits) :=
  if !manifest.isDict then .ok none
  else
    match budgetSteps manifest op with
    | .list steps => do
      let budget ← stepsBudget steps
      let hard := budget + 600
      if hard ≤ globalHard then .ok none
      else
        let hard := if limitCeiling < hard then limitCeiling else hard
        .ok (some ⟨hard, max globalHard (hard - 300)⟩)
    | _ => .ok none

/-! ### The steps that a phase comes to -/

/-- A step, as far as the time that it takes depends on it. -/
structure TimedStep where
  timeout : Int
  retries : Nat
  backoff : Nat
  deriving DecidableEq, Repr

/-- The time of a call with its retry policy; a sleep that is too long ends the attempts. -/
def TimedStep.ofCall (call : StepSpec × Nat × Nat) : TimedStep where
  timeout := call.1.timeoutSeconds
  retries := if maxSleepSeconds < call.2.2 then 0 else call.2.1 - 1
  backoff := call.2.2

theorem TimedStep.ofCall_retries (spec : StepSpec) (maxAttempts backoff : Nat) :
    (TimedStep.ofCall (spec, maxAttempts, backoff)).retries = 0 ∨
      (TimedStep.ofCall (spec, maxAttempts, backoff)).retries = maxAttempts - 1 ∧
        ¬maxSleepSeconds < backoff := by
  rw [TimedStep.ofCall]
  dsimp only
  split
  · exact .inl rfl
  · exact .inr ⟨rfl, ‹_›⟩

/-- The most seconds of an attempt, where a container without a timeout runs for `unlimited`. -/
def attemptMost (unlimited : Nat) (timeout : Int) : Nat :=
  (pullTimeout timeout).toNat + if timeout = 0 then unlimited else timeout.toNat

def TimedStep.most (unlimited : Nat) (t : TimedStep) : Nat :=
  (t.retries + 1) * attemptMost unlimited t.timeout + t.retries * t.backoff

section Visits

variable (repr : Value → String) (config : EngineConfig) (writable : Nat → Bool)
variable (ctx : ModuleContext) (shared : Shared)

def nextMarkers (p : Nat × Value) (markers : List String) : List String :=
  if runsOnce p.2 && writable p.1 then markers ++ [markerOf repr p] else markers

/-- The steps that a phase makes calls for if all of them succeed that can. A pull with a negative
timeout raises, so the phase ends there. -/
def timedSteps : List (Nat × Value) → List String → List TimedStep
  | [], _ => []
  | p :: steps, markers =>
    if p.2.isDict then
      match stepEnabled repr ctx.vars p.2 with
      | .ok false => timedSteps steps markers
      | .ok true =>
        if Skipped repr markers p then timedSteps steps markers
        else if !(p.2.get "args").isList || (elements (p.2.get "args")).isEmpty then []
        else
          match prepareStep repr config ctx shared p.1 p.2 with
          | .ok call =>
            .ofCall call :: if call.1.timeoutSeconds < 0 then []
              else timedSteps steps (nextMarkers repr writable p markers)
          | .error _ => []
      | .error _ => []
    else []

end Visits

def timedStepsOf (repr : Value → String) (config : EngineConfig) (around : Surroundings)
    (ctx : ModuleContext) (op : Operation) : List TimedStep :=
  match resolveShared repr (contextOf ctx op) with
  | .error _ => []
  | .ok shared =>
    timedSteps repr config around.writable (contextOf ctx op) shared (stepsOf ctx.packManifest op)
      around.markers

section

variable {repr : Value → String} {config : EngineConfig} {around : Surroundings}
variable {docker : List StepSpec → StepSpec → DockerCall} {ctx : ModuleContext} {shared : Shared}

variable (repr config around docker ctx shared) in
/-- How the loop meets a step: it stops there, passes it without a call, or calls the runner. -/
inductive Visit (p : Nat × Value) (s : PhaseState) : Prop
  | stops {outcome : Outcome}
    (hrun : runOne repr config around ctx shared p.1 p.2 s = (s, outcome)) (hne : outcome ≠ .next)
    (hseconds : stepSeconds repr config around docker ctx shared p s = 0)
    (htimed : ∀ steps, timedSteps repr config around.writable ctx shared (p :: steps) s.markers = [])
  | passes {s' : PhaseState}
    (hrun : runOne repr config around ctx shared p.1 p.2 s = (s', .next))
    (hmarkers : s'.markers = s.markers) (hcalls : s'.calls = s.calls)
    (hseconds : stepSeconds repr config around docker ctx shared p s = 0)
    (htimed : ∀ steps, timedSteps repr config around.writable ctx shared (p :: steps) s.markers =
      timedSteps repr config around.writable ctx shared steps s.markers)
  | calls {spec : StepSpec} {maxAttempts backoff : Nat}
    (hrun : runOne repr config around ctx shared p.1 p.2 s =
      launch repr config around ctx shared p s)
    (hprepare : prepareStep repr config ctx shared p.1 p.2 = .ok (spec, maxAttempts, backoff))
    (hseconds : stepSeconds repr config around docker ctx shared p s =
      attemptSeconds config around docker spec maxAttempts backoff (maxAttempts - 1) 1 s)
    (htimed : ∀ steps, timedSteps repr config around.writable ctx shared (p :: steps) s.markers =
      .ofCall (spec, maxAttempts, backoff) :: if spec.timeoutSeconds < 0 then []
        else timedSteps repr config around.writable ctx shared steps (nextMarkers repr around.writable p s.markers))

theorem hasArgv_iff {step : Value} :
    HasArgv step ↔ (!(step.get "args").isList || (elements (step.get "args")).isEmpty) = false := by
  simp [HasArgv]

theorem visit (p : Nat × Value) (s : PhaseState) :
    Visit repr config around docker ctx shared p s := by
  cases hdict : p.2.isDict with
  | false =>
    have hrun : runOne repr config around ctx shared p.1 p.2 s = (s, .failed (.notAnObject p.1)) := by
      rw [runOne, if_pos (by simp [hdict])]
    refine .stops hrun (by simp) ?_ fun _ ↦ ?_
    · rw [stepSeconds, if_neg (by simp [hdict])]
    · rw [timedSteps, if_neg (by simp [hdict])]
  | true =>
    cases henabled : stepEnabled repr ctx.vars p.2 with
    | error e =>
      refine .stops (runOne_gateRaised hdict henabled) (by simp) ?_ fun _ ↦ ?_
      · rw [stepSeconds, if_pos hdict, henabled]
      · rw [timedSteps, if_pos hdict, henabled]
    | ok enabled =>
      cases enabled with
      | false =>
        refine .passes (runOne_gated hdict henabled) rfl rfl ?_ fun _ ↦ ?_
        · rw [stepSeconds, if_pos hdict, henabled]
        · rw [timedSteps, if_pos hdict, henabled]
      | true =>
        by_cases hskip : Skipped repr s.markers p
        · refine .passes (runOne_skipped hdict henabled hskip) rfl rfl ?_ fun _ ↦ ?_
          · rw [stepSeconds, if_pos hdict, henabled]
            exact if_pos hskip
          · rw [timedSteps, if_pos hdict, henabled]
            exact if_pos hskip
        by_cases hargs : HasArgv p.2
        · have hrun : runOne repr config around ctx shared p.1 p.2 s =
              launch repr config around ctx shared p s := runOne_launched hdict hargs henabled hskip
          rw [hasArgv_iff] at hargs
          have hseconds : stepSeconds repr config around docker ctx shared p s =
              match prepareStep repr config ctx shared p.1 p.2 with
              | .ok (spec, maxAttempts, backoff) =>
                attemptSeconds config around docker spec maxAttempts backoff (maxAttempts - 1) 1 s
              | .error _ => 0 := by
            rw [stepSeconds, if_pos hdict, henabled]
            exact (if_neg hskip).trans (if_neg (Bool.not_eq_true _ ▸ hargs))
          have htimed : ∀ steps, timedSteps repr config around.writable ctx shared (p :: steps) s.markers =
              match prepareStep repr config ctx shared p.1 p.2 with
              | .ok call => .ofCall call :: if call.1.timeoutSeconds < 0 then []
                else timedSteps repr config around.writable ctx shared steps (nextMarkers repr around.writable p s.markers)
              | .error _ => [] := by
            intro steps
            rw [timedSteps, if_pos hdict, henabled]
            exact (if_neg hskip).trans (if_neg (Bool.not_eq_true _ ▸ hargs))
          cases hprepare : prepareStep repr config ctx shared p.1 p.2 with
          | error e =>
            simp only [hprepare] at hseconds htimed
            have hraised : launch repr config around ctx shared p s = (s, .raised e) := by
              rw [launch, hprepare]
            exact .stops (hrun.trans hraised) (by simp) hseconds htimed
          | ok call =>
            obtain ⟨spec, maxAttempts, backoff⟩ := call
            simp only [hprepare] at hseconds htimed
            exact .calls hrun hprepare hseconds htimed
        · have hnone := hargs
          rw [hasArgv_iff, Bool.not_eq_false] at hnone
          refine .stops (runOne_noArgs hdict hargs henabled hskip) (by simp) ?_ fun _ ↦ ?_
          · rw [stepSeconds, if_pos hdict, henabled]
            exact (if_neg hskip).trans (if_pos hnone)
          · rw [timedSteps, if_pos hdict, henabled]
            exact (if_neg hskip).trans (if_pos hnone)

/-! ### No phase takes longer -/

theorem dockerStep_seconds_le {spec : StepSpec} (h : spec.timeoutSeconds ≠ 0) (call : DockerCall) :
    (dockerStep spec call).2 ≤ attemptMost 0 spec.timeoutSeconds := by
  rw [attemptMost, pullTimeout, if_neg h, if_neg h, dockerStep, pullTimeout, if_neg h]
  split
  · exact Nat.le_add_right _ _
  · split
    · dsimp only
      omega
    · split
      · dsimp only
        omega
      · dsimp only
        omega

theorem dockerStep_negative {spec : StepSpec} (h : spec.timeoutSeconds < 0) (call : DockerCall) :
    dockerStep spec call = (⟨call.lines, none⟩, 0) := by
  have htimeout : pullTimeout spec.timeoutSeconds = spec.timeoutSeconds := if_neg (by omega)
  rw [dockerStep, htimeout, if_pos (by omega), Int.toNat_of_nonpos h.le]

theorem attemptMost_negative {timeout : Int} (h : timeout < 0) (unlimited : Nat) :
    attemptMost unlimited timeout = 0 := by
  rw [attemptMost, pullTimeout, if_neg h.ne, if_neg h.ne, Int.toNat_of_nonpos h.le]

theorem calls_runStep {spec : StepSpec} {s : PhaseState} :
    (runStep config around spec s).1.calls = s.calls ++ [spec] :=
  (runStep_agrees config around spec s).calls

theorem answer_onDocker (hdocker : around.runner = (around.onDocker docker).runner)
    {calls : List StepSpec} {spec : StepSpec} : answer around calls spec =
      (dockerStep spec (docker calls spec)).1.result.getD { success := false, exitCode := 1 } := by
  rw [answer, hdocker]
  rfl

theorem attemptSeconds_settled {spec : StepSpec} {maxAttempts backoff left attempt : Nat}
    {s : PhaseState} (h : Settled (answer around s.calls spec)) :
    attemptSeconds config around docker spec maxAttempts backoff left attempt s =
      (dockerStep spec (docker s.calls spec)).2 := by
  rw [attemptSeconds.eq_def]
  exact congrArg _ (if_pos (Bool.or_eq_true_iff.mpr h))

theorem attemptSeconds_zero {spec : StepSpec} {maxAttempts backoff attempt : Nat} {s : PhaseState} :
    attemptSeconds config around docker spec maxAttempts backoff 0 attempt s =
      (dockerStep spec (docker s.calls spec)).2 := by
  rw [attemptSeconds]
  exact congrArg _ (ite_self _)

theorem attemptSeconds_succ {spec : StepSpec} {maxAttempts backoff left attempt : Nat}
    {s : PhaseState} (h : ¬Settled (answer around s.calls spec)) :
    attemptSeconds config around docker spec maxAttempts backoff (left + 1) attempt s =
      (dockerStep spec (docker s.calls spec)).2 + if maxSleepSeconds < backoff then 0
        else backoff + attemptSeconds config around docker spec maxAttempts backoff left (attempt + 1)
          (retryState config around spec attempt maxAttempts backoff s) := by
  rw [attemptSeconds]
  exact congrArg _ (if_neg fun hdone ↦ h (Bool.or_eq_true_iff.mp hdone))

theorem attemptSeconds_le {spec : StepSpec} {maxAttempts backoff left attempt most : Nat}
    {s : PhaseState} (h : ∀ call, (dockerStep spec call).2 ≤ most) :
    attemptSeconds config around docker spec maxAttempts backoff left attempt s ≤
      ((if maxSleepSeconds < backoff then 0 else left) + 1) * most +
        (if maxSleepSeconds < backoff then 0 else left) * backoff := by
  induction left generalizing attempt s with
  | zero =>
    rw [attemptSeconds_zero, ite_self, Nat.zero_add, Nat.one_mul, Nat.zero_mul]
    exact h _
  | succ left ih =>
    have hcall := h (docker s.calls spec)
    by_cases hsettled : Settled (answer around s.calls spec)
    · rw [attemptSeconds_settled hsettled, Nat.add_mul, Nat.one_mul]
      omega
    · rw [attemptSeconds_succ hsettled]
      split
      · omega
      · next hsleep =>
        have hrest := @ih (attempt + 1) (retryState config around spec attempt maxAttempts backoff s)
        rw [if_neg hsleep] at hrest
        calc _ ≤ most + (backoff + ((left + 1) * most + left * backoff)) :=
              Nat.add_le_add hcall (Nat.add_le_add_left hrest backoff)
          _ = (left + 1 + 1) * most + (left + 1) * backoff := by ring

theorem attemptStep_result {spec : StepSpec} {maxAttempts backoff left attempt attempts : Nat}
    {s s' : PhaseState} {result : StepResult}
    (h : attemptStep config around spec maxAttempts backoff left attempt s =
      (s', .ok (result, attempts))) : ∃ calls, result = answer around calls spec := by
  induction left generalizing attempt s with
  | zero =>
    rw [attemptStep_zero] at h
    cases h
    exact ⟨s.calls, rfl⟩
  | succ left ih =>
    by_cases hsettled : Settled (answer around s.calls spec)
    · rw [attemptStep_settled hsettled] at h
      cases h
      exact ⟨s.calls, rfl⟩
    · rw [attemptStep_succ hsettled] at h
      split at h
      · cases h
      · exact ih h

theorem launch_next {p : Nat × Value} {s s' : PhaseState} {spec : StepSpec}
    {policy : Nat × Nat} (hprepare : prepareStep repr config ctx shared p.1 p.2 = .ok (spec, policy))
    (h : launch repr config around ctx shared p s = (s', .next)) :
    s'.markers = nextMarkers repr around.writable p s.markers ∧
      ∃ calls, (answer around calls spec).success = true := by
  rw [launch, hprepare] at h
  dsimp only at h
  split at h
  · cases h
  · next s₁ result attempts heq =>
    split at h
    · next hsuccess =>
      cases h
      obtain ⟨calls, rfl⟩ := attemptStep_result heq
      refine ⟨?_, calls, hsuccess⟩
      rw [completedState, nextMarkers, (Attempted.of_attemptStep heq).markers]
    · cases h

theorem runSeconds_le (hdocker : around.runner = (around.onDocker docker).runner)
    {steps : List (Nat × Value)} {s : PhaseState}
    (hlimited : ∀ t ∈ timedSteps repr config around.writable ctx shared steps s.markers,
      t.timeout ≠ 0) :
    runSeconds repr config around docker ctx shared steps s ≤
      ((timedSteps repr config around.writable ctx shared steps s.markers).map
        (TimedStep.most 0)).sum := by
  induction steps generalizing s with
  | nil => exact Nat.zero_le _
  | cons p steps ih =>
    rw [runSeconds]
    have hvisit : Visit repr config around docker ctx shared p s := visit p s
    obtain ⟨hrun, hne, hseconds, -⟩ | ⟨hrun, hmarkers, -, hseconds, htimed⟩ |
      ⟨hrun, hprepare, hseconds, htimed⟩ := hvisit
    · rw [hseconds, hrun, Nat.zero_add]
      split
      · next heq => exact absurd (congrArg Prod.snd heq) hne
      · exact Nat.zero_le _
    · rw [htimed] at hlimited ⊢
      rw [hseconds, hrun, Nat.zero_add]
      dsimp only
      rw [← hmarkers] at hlimited ⊢
      exact ih hlimited
    · next spec maxAttempts backoff =>
      rw [htimed] at hlimited ⊢
      rw [hseconds, hrun, map_cons, sum_cons]
      refine Nat.add_le_add ?_ ?_
      · have hspec : spec.timeoutSeconds ≠ 0 := hlimited _ mem_cons_self
        exact attemptSeconds_le (dockerStep_seconds_le hspec)
      · split
        · next s' heq =>
          obtain ⟨hmarkers, calls, hsuccess⟩ := launch_next hprepare heq
          have hspec : ¬spec.timeoutSeconds < 0 := by
            intro hnegative
            rw [answer_onDocker hdocker, dockerStep_negative hnegative] at hsuccess
            cases hsuccess
          rw [if_neg hspec, ← hmarkers] at hlimited ⊢
          exact ih fun t ht ↦ hlimited t (mem_cons_of_mem _ ht)
        · exact Nat.zero_le _

/-! ### A phase takes that long -/

/-- A call that uses its whole allowance and ends with this code. -/
def fullCall (unlimited : Nat) (timeout exitCode : Int) : DockerCall where
  pullSeconds := (pullTimeout timeout).toNat
  runSeconds := if timeout = 0 then unlimited else timeout.toNat
  exitCode := exitCode

theorem dockerStep_fullCall {spec : StepSpec} (h : 0 ≤ spec.timeoutSeconds)
    (unlimited : Nat) (exitCode : Int) :
    dockerStep spec (fullCall unlimited spec.timeoutSeconds exitCode) =
      (⟨[], some { success := exitCode == 0, exitCode := exitCode }⟩,
        attemptMost unlimited spec.timeoutSeconds) := by
  rw [dockerStep, if_neg, if_neg, if_neg]
  · rfl
  · rintro ⟨hne, hlt⟩
    rw [fullCall, if_neg hne] at hlt
    dsimp only at hlt
    omega
  · exact Bool.false_ne_true
  · rw [fullCall, pullTimeout]
    dsimp only
    split <;> omega

/-- The calls that make a step take its time: it fails until no attempt is left. -/
def TimedStep.calls (unlimited : Nat) (t : TimedStep) : List DockerCall :=
  List.replicate t.retries (fullCall unlimited t.timeout 1) ++ [fullCall unlimited t.timeout 0]

def Follows (docker : List StepSpec → StepSpec → DockerCall) (n : Nat) (plan : List DockerCall) :
    Prop :=
  ∀ i call, plan[i]? = some call → ∀ calls spec, calls.length = n + i → docker calls spec = call

theorem Follows.head {n : Nat} {call : DockerCall} {plan : List DockerCall}
    (h : Follows docker n (call :: plan)) {calls : List StepSpec} (hcalls : calls.length = n)
    (spec : StepSpec) : docker calls spec = call :=
  h 0 call rfl calls spec hcalls

theorem Follows.tail {n : Nat} {call : DockerCall} {plan : List DockerCall}
    (h : Follows docker n (call :: plan)) : Follows docker (n + 1) plan :=
  fun i next hi calls spec hcalls ↦ h (i + 1) next hi calls spec (by omega)

theorem Follows.of_append {n : Nat} {plan plan' : List DockerCall}
    (h : Follows docker n (plan ++ plan')) :
    Follows docker n plan ∧ Follows docker (n + plan.length) plan' := by
  constructor
  · intro i call hi
    have hlt := (List.getElem?_eq_some_iff.mp hi).1
    exact h i call ((getElem?_append_left hlt).trans hi)
  · intro i call hi calls spec hcalls
    refine h (plan.length + i) call ?_ calls spec (by omega)
    rw [getElem?_append_right (Nat.le_add_right _ _), Nat.add_sub_cancel_left]
    exact hi

theorem follows_getD (plan : List DockerCall) :
    Follows (fun calls _ ↦ plan.getD calls.length {}) 0 plan := by
  intro i call hcall calls spec hlength
  dsimp only
  rw [hlength, Nat.zero_add, getD_eq_getElem?_getD, hcall, Option.getD_some]

section

variable (hdocker : around.runner = (around.onDocker docker).runner)
include hdocker

theorem attempts_full {spec : StepSpec} (h : 0 ≤ spec.timeoutSeconds)
    {unlimited maxAttempts backoff retries left attempt : Nat} {s : PhaseState}
    (hbackoff : retries = 0 ∨ retries = left ∧ ¬maxSleepSeconds < backoff)
    (hplan : Follows docker s.calls.length
      (List.replicate retries (fullCall unlimited spec.timeoutSeconds 1) ++
        [fullCall unlimited spec.timeoutSeconds 0])) :
    attemptSeconds config around docker spec maxAttempts backoff left attempt s =
        (retries + 1) * attemptMost unlimited spec.timeoutSeconds + retries * backoff ∧
      ∃ s' result attempts, attemptStep config around spec maxAttempts backoff left attempt s =
          (s', .ok (result, attempts)) ∧ result.success = true ∧
        s'.calls.length = s.calls.length + (retries + 1) := by
  induction retries generalizing left attempt s with
  | zero =>
    have hcall := hplan.head rfl spec
    have hanswer : answer around s.calls spec = { success := true, exitCode := 0 } := by
      rw [answer_onDocker hdocker, hcall, dockerStep_fullCall h]
      rfl
    have hsettled : Settled (answer around s.calls spec) := .inl (by rw [hanswer])
    refine ⟨?_, _, _, _, attemptStep_settled hsettled, by rw [hanswer], ?_⟩
    · rw [attemptSeconds_settled hsettled, hcall, dockerStep_fullCall h]
      simp
    · rw [calls_runStep, length_append, length_singleton]
  | succ retries ih =>
    obtain ⟨rfl, hsleep⟩ := hbackoff.resolve_left (Nat.succ_ne_zero retries)
    have hcall := hplan.head rfl spec
    have hanswer : answer around s.calls spec = { success := false, exitCode := 1 } := by
      rw [answer_onDocker hdocker, hcall, dockerStep_fullCall h]
      rfl
    have hsettled : ¬Settled (answer around s.calls spec) := by
      rw [hanswer]
      simp [Settled]
    have hlength : (retryState config around spec attempt maxAttempts backoff s).calls.length =
        s.calls.length + 1 := by
      change (runStep config around spec s).1.calls.length = _
      rw [calls_runStep, length_append, length_singleton]
    obtain ⟨hseconds, s', result, attempts, hrun, hsuccess, hcalls⟩ :=
      @ih retries (attempt + 1) _ (.inr ⟨rfl, hsleep⟩) (hlength ▸ hplan.tail)
    refine ⟨?_, s', result, attempts, ?_, hsuccess, by omega⟩
    · rw [attemptSeconds_succ hsettled, if_neg hsleep, hseconds, hcall, dockerStep_fullCall h]
      ring
    · rw [attemptStep_succ hsettled, if_neg hsleep, hrun]

theorem attempts_negative {spec : StepSpec} (h : spec.timeoutSeconds < 0)
    {maxAttempts backoff left attempt : Nat} {s : PhaseState} :
    attemptSeconds config around docker spec maxAttempts backoff left attempt s =
      (if maxSleepSeconds < backoff then 0 else left) * backoff := by
  have hsettled : ∀ s : PhaseState, ¬Settled (answer around s.calls spec) := by
    intro s
    rw [answer_onDocker hdocker, dockerStep_negative h]
    simp [Settled]
  induction left generalizing attempt s with
  | zero => rw [attemptSeconds_zero, dockerStep_negative h, ite_self, Nat.zero_mul]
  | succ left ih =>
    rw [attemptSeconds_succ (hsettled s), dockerStep_negative h, ih]
    split
    · exact (Nat.zero_mul backoff).symm
    · ring

theorem runSeconds_full {unlimited : Nat} {steps : List (Nat × Value)} {s : PhaseState}
    (hplan : Follows docker s.calls.length
      ((timedSteps repr config around.writable ctx shared steps s.markers).flatMap
        (TimedStep.calls unlimited))) :
    runSeconds repr config around docker ctx shared steps s =
      ((timedSteps repr config around.writable ctx shared steps s.markers).map
        (TimedStep.most unlimited)).sum := by
  induction steps generalizing s with
  | nil => rfl
  | cons p steps ih =>
    rw [runSeconds]
    have hvisit : Visit repr config around docker ctx shared p s := visit p s
    obtain ⟨hrun, hne, hseconds, htimed⟩ | ⟨hrun, hmarkers, hcalls, hseconds, htimed⟩ |
      ⟨hrun, hprepare, hseconds, htimed⟩ := hvisit
    · rw [hseconds, hrun, htimed, Nat.zero_add]
      split
      · next heq => exact absurd (congrArg Prod.snd heq) hne
      · rfl
    · rw [htimed] at hplan ⊢
      rw [hseconds, hrun, Nat.zero_add]
      dsimp only
      rw [← hmarkers, ← hcalls] at hplan
      rw [← hmarkers]
      exact ih hplan
    · next spec maxAttempts backoff =>
      rw [htimed] at hplan ⊢
      rw [hseconds, hrun, map_cons, sum_cons]
      rw [flatMap_cons] at hplan
      obtain ⟨hhead, htail⟩ := hplan.of_append
      by_cases hspec : spec.timeoutSeconds < 0
      · rw [attempts_negative hdocker hspec, if_pos hspec, TimedStep.most, TimedStep.ofCall,
          attemptMost_negative hspec, Nat.mul_zero, Nat.zero_add]
        congr 1
        split
        · next s' heq =>
          obtain ⟨-, calls, hsuccess⟩ := launch_next hprepare heq
          rw [answer_onDocker hdocker, dockerStep_negative hspec] at hsuccess
          cases hsuccess
        · rfl
      · rw [if_neg hspec] at htail ⊢
        obtain ⟨hattempts, s', result, attempts, hattempted, hsuccess, hlength⟩ :=
          attempts_full hdocker (not_lt.mp hspec) (TimedStep.ofCall_retries spec maxAttempts backoff)
            hhead
        have hlaunch : launch repr config around ctx shared p s =
            (completedState repr around p s', .next) := by
          rw [launch, hprepare]
          dsimp only
          rw [hattempted]
          exact if_pos hsuccess
        have hmarkers : (completedState repr around p s').markers =
            nextMarkers repr around.writable p s.markers := (launch_next hprepare hlaunch).1
        have hcalls : (completedState repr around p s').calls.length = s.calls.length +
            (TimedStep.calls unlimited (.ofCall (spec, maxAttempts, backoff))).length := by
          rw [TimedStep.calls, length_append, length_replicate, length_singleton]
          exact hlength
        rw [hattempts, hlaunch, ← hmarkers]
        rw [← hmarkers, ← hcalls] at htail
        exact congrArg _ (ih htail)

end

/-! ### The worst case -/

theorem operationSeconds_le {op : Operation}
    (h : ∀ t ∈ timedStepsOf repr config around ctx op, t.timeout ≠ 0) :
    operationSeconds repr config around docker ctx op ≤
      ((timedStepsOf repr config around ctx op).map (TimedStep.most 0)).sum := by
  rw [operationSeconds]
  rw [timedStepsOf] at h ⊢
  cases hshared : resolveShared repr (contextOf ctx op) with
  | error e => exact Nat.zero_le _
  | ok shared =>
    rw [hshared] at h
    exact runSeconds_le rfl h

theorem exists_operationSeconds (unlimited : Nat) (op : Operation) :
    ∃ docker, operationSeconds repr config around docker ctx op =
      ((timedStepsOf repr config around ctx op).map (TimedStep.most unlimited)).sum := by
  refine ⟨fun calls _ ↦ ((timedStepsOf repr config around ctx op).flatMap
    (TimedStep.calls unlimited)).getD calls.length {}, ?_⟩
  rw [operationSeconds, timedStepsOf]
  cases hshared : resolveShared repr (contextOf ctx op) with
  | error e => rfl
  | ok shared =>
    exact runSeconds_full rfl (follows_getD _)

theorem worstCase_eq (op : Operation) :
    worstCase repr config around ctx op =
      if ∀ t ∈ timedStepsOf repr config around ctx op, t.timeout ≠ 0 then
        (((timedStepsOf repr config around ctx op).map (TimedStep.most 0)).sum : ℕ∞)
      else ⊤ := by
  split
  · next hlimited =>
    apply le_antisymm
    · exact iSup_le fun docker ↦ Nat.cast_le.mpr (operationSeconds_le hlimited)
    · obtain ⟨docker, hseconds⟩ : ∃ docker, operationSeconds repr config around docker ctx op =
        ((timedStepsOf repr config around ctx op).map (TimedStep.most 0)).sum :=
          exists_operationSeconds 0 op
      rw [← hseconds]
      exact le_iSup (fun docker ↦ (operationSeconds repr config around docker ctx op : ℕ∞)) docker
  · next hunlimited =>
    push Not at hunlimited
    obtain ⟨t, ht, htimeout⟩ := hunlimited
    rw [ENat.eq_top_iff_forall_ge]
    intro n
    obtain ⟨docker, hseconds⟩ : ∃ docker, operationSeconds repr config around docker ctx op =
      ((timedStepsOf repr config around ctx op).map (TimedStep.most n)).sum :=
        exists_operationSeconds n op
    have hmost : n ≤ t.most n := by
      rw [TimedStep.most, attemptMost, if_pos htimeout]
      nlinarith
    have hsum : n ≤ operationSeconds repr config around docker ctx op := by
      rw [hseconds]
      exact hmost.trans (le_sum_of_mem (mem_map_of_mem ht))
    exact (Nat.cast_le.mpr hsum).trans
      (le_iSup (fun docker ↦ (operationSeconds repr config around docker ctx op : ℕ∞)) docker)

end

/-! ### What the budget leaves out -/

def numberOr (value : Value) (default : Int) : Int := value.toInt.toOption.getD default

def declaredSeconds (step : Value) : Int :=
  let attempts := max 1 (numberOr ((step.get "retry").get "max_attempts") 1)
  numberOr (step.get "timeout_seconds") 1800 * attempts +
    max 0 (numberOr ((step.get "retry").get "backoff_seconds") 0) * (attempts - 1)

def declaredOf (manifest : Value) (op : Operation) : Int :=
  (((elements (stepSetOf manifest op)).filter Value.isDict).map declaredSeconds).sum

theorem safeInt_ok {value : Value} {default n : Int} (h : safeInt value default = .ok n) :
    n = numberOr value default := by
  rw [safeInt] at h
  rw [numberOr]
  split at h
  · next heq =>
    cases h
    rw [heq]
    rfl
  · cases h
  · next heq =>
    cases h
    rw [heq]
    rfl

theorem retry_get (step : Value) (key : String) :
    (if (step.get "retry").isDict then step.get "retry" else .dict []).get key =
      (step.get "retry").get key := by
  cases step.get "retry" <;> rfl

theorem stepBudget_ok {step : Value} {seconds : Int} (h : stepBudget step = .ok seconds) :
    seconds = declaredSeconds step := by
  rw [stepBudget] at h
  obtain ⟨timeout, htimeout, h⟩ := ExceptResult.bind_eq_ok.mp h
  obtain ⟨attempts, hattempts, h⟩ := ExceptResult.bind_eq_ok.mp h
  obtain ⟨backoff, hbackoff, h⟩ := ExceptResult.bind_eq_ok.mp h
  cases h
  rw [retry_get] at hattempts hbackoff
  rw [declaredSeconds, ← safeInt_ok htimeout, ← safeInt_ok hattempts, ← safeInt_ok hbackoff]

theorem stepsBudget_ok {steps : List Value} {seconds : Int} (h : stepsBudget steps = .ok seconds) :
    seconds = ((steps.filter Value.isDict).map declaredSeconds).sum := by
  induction steps generalizing seconds with
  | nil =>
    cases h
    rfl
  | cons step steps ih =>
    rw [stepsBudget] at h
    split at h
    · next hdict =>
      obtain ⟨first, hfirst, h⟩ := ExceptResult.bind_eq_ok.mp h
      obtain ⟨rest, hrest, h⟩ := ExceptResult.bind_eq_ok.mp h
      cases h
      rw [filter_cons_of_pos hdict, map_cons, sum_cons, ← stepBudget_ok hfirst,
        ← ih hrest]
    · next hdict =>
      rw [filter_cons_of_neg hdict]
      exact ih h

theorem get_eq_none {v : Value} (h : v.isDict = false) (key : String) : v.get key = .none := by
  cases v <;> first | rfl | cases h

theorem orElse_get (v : Value) (key : String) :
    (if (v.orElse (.dict [])).isDict then (v.orElse (.dict [])).get key else .none) = v.get key := by
  rw [Value.orElse]
  cases htruthy : v.truthy with
  | true =>
    rw [if_pos rfl]
    split
    · rfl
    · next hdict => exact (get_eq_none (Bool.eq_false_iff.mpr hdict) key).symm
  | false =>
    rw [if_neg Bool.false_ne_true]
    cases v with
    | dict items =>
      cases items with
      | nil => rfl
      | cons item items => cases htruthy
    | _ => rfl

theorem budgetSteps_eq (manifest : Value) (op : Operation) :
    budgetSteps manifest op = stepSetOf manifest op := by
  cases op with
  | action name inputs =>
    rw [budgetSteps, orElse_get, stepSetOf]
    have hsteps := orElse_get ((manifest.get "actions").get name) "steps"
    cases hdict : ((manifest.get "actions").get name).isDict with
    | true =>
      rw [if_pos rfl, ← hsteps, if_pos]
      rw [Value.orElse]
      split
      · exact hdict
      · rfl
    | false => rw [if_neg Bool.false_ne_true, get_eq_none hdict]
  | init => rfl
  | plan => rfl
  | apply => rfl
  | destroy => rfl

theorem timeoutSeconds_ok {step : Value} {timeout : Int} (h : timeoutSeconds step = .ok timeout) :
    timeout = numberOr (step.get "timeout_seconds") 1800 := by
  rw [timeoutSeconds] at h
  rw [Value.get]
  split at h
  · next value hlookup =>
    rw [hlookup, Option.getD_some, numberOr]
    rw [intOf] at h
    cases hint : value.toInt with
    | error e =>
      rw [hint] at h
      cases h
    | ok n =>
      rw [hint] at h
      cases h
      rfl
  · next hlookup =>
    cases h
    rw [hlookup]
    rfl

theorem retryNumber_ok {value : Value} {least : Int} (hleast : 0 ≤ least) {n : Nat}
    (h : (match value.toInt with
      | .ok n => Except.ok (max least n).toNat
      | .error .overflowError => .error (EngineError.intError .overflowError)
      | .error _ => .ok least.toNat) = .ok n) : (n : Int) = max least (numberOr value least) := by
  rw [numberOr]
  split at h
  · next heq =>
    cases h
    rw [heq, Int.toNat_of_nonneg (hleast.trans (le_max_left _ _))]
    rfl
  · cases h
  · next heq =>
    cases h
    rw [heq, Int.toNat_of_nonneg hleast]
    exact (max_self least).symm

theorem stepRetryPolicy_ok {step : Value} {maxAttempts backoff : Nat}
    (h : stepRetryPolicy step = .ok (maxAttempts, backoff)) :
    (maxAttempts : Int) = max 1 (numberOr ((step.get "retry").get "max_attempts") 1) ∧
      (backoff : Int) = max 0 (numberOr ((step.get "retry").get "backoff_seconds") 0) := by
  rw [stepRetryPolicy] at h
  dsimp only at h
  cases hdict : (step.get "retry").isDict with
  | true =>
    rw [if_pos hdict] at h
    obtain ⟨attempts, hattempts, h⟩ := ExceptResult.bind_eq_ok.mp h
    obtain ⟨seconds, hseconds, h⟩ := ExceptResult.bind_eq_ok.mp h
    cases h
    exact ⟨retryNumber_ok (by decide) hattempts, retryNumber_ok le_rfl hseconds⟩
  | false =>
    rw [if_neg (by simp [hdict])] at h
    cases h
    rw [get_eq_none hdict, get_eq_none hdict]
    exact ⟨rfl, rfl⟩

theorem declaredSeconds_of_prepareStep {repr : Value → String} {config : EngineConfig}
    {ctx : ModuleContext} {shared : Shared} {p : Nat × Value} {spec : StepSpec}
    {maxAttempts backoff : Nat}
    (h : prepareStep repr config ctx shared p.1 p.2 = .ok (spec, maxAttempts, backoff)) :
    declaredSeconds p.2 = spec.timeoutSeconds * maxAttempts + backoff * (maxAttempts - 1) := by
  rw [prepareStep] at h
  obtain ⟨args, -, h⟩ := ExceptResult.bind_eq_ok.mp h
  obtain ⟨env, -, h⟩ := ExceptResult.bind_eq_ok.mp h
  obtain ⟨timeout, htimeout, h⟩ := ExceptResult.bind_eq_ok.mp h
  obtain ⟨policy, hpolicy, h⟩ := ExceptResult.bind_eq_ok.mp h
  cases h
  obtain ⟨hattempts, hbackoff⟩ := stepRetryPolicy_ok hpolicy
  rw [declaredSeconds, ← timeoutSeconds_ok htimeout, ← hattempts, ← hbackoff]

/-! ### When the limits cover the worst case -/

section

variable (repr : Value → String) (config : EngineConfig) (around : Surroundings)
variable (ctx : ModuleContext) (op : Operation)

/-- The limit that is given is the ceiling, because the budget would need a higher one. -/
def Capped : Prop :=
  ∃ budget, stepsBudget (elements (budgetSteps ctx.packManifest op)) = .ok budget ∧
    limitCeiling < budget + 600

def LimitsCover : Option TimeLimits → Prop
  | none => worstCase repr config around ctx op ≤ (globalHard.toNat : ℕ∞)
  | some limits => limits.soft < limits.hard ∧ limits.hard ≤ visibilityTimeout - 600 ∧
      (worstCase repr config around ctx op ≤ (limits.hard.toNat : ℕ∞) ∨ Capped ctx op)

/-- The allowances for the attempts of a step once more. -/
def TimedStep.pulls (t : TimedStep) : Nat := t.timeout.natAbs * (t.retries + 1)

def TimedStep.counted (t : TimedStep) : Int := t.timeout * (t.retries + 1) + t.backoff * t.retries

/-- The budget needs the ceiling, or no step that the phase comes to is without a timeout and the
allowances for pulling fit in the headroom and in what is counted for steps and attempts that the
phase does not come to. -/
def LeavesRoom : Prop :=
  limitCeiling < declaredOf ctx.packManifest op + 600 ∨
    (∀ t ∈ timedStepsOf repr config around ctx op, t.timeout ≠ 0) ∧
      (((timedStepsOf repr config around ctx op).map TimedStep.pulls).sum : Int) ≤
        max 600 (globalHard - declaredOf ctx.packManifest op) +
          (declaredOf ctx.packManifest op -
            ((timedStepsOf repr config around ctx op).map TimedStep.counted).sum)

end

theorem TimedStep.most_eq {t : TimedStep} (h : t.timeout ≠ 0) :
    (t.most 0 : Int) = t.pulls + t.counted := by
  have hattempt : (attemptMost 0 t.timeout : Int) = t.timeout.natAbs + t.timeout := by
    rw [attemptMost, pullTimeout, if_neg h, if_neg h]
    omega
  rw [most, pulls, counted]
  push_cast
  rw [hattempt]
  push_cast
  ring

theorem sum_most {ts : List TimedStep} (h : ∀ t ∈ ts, t.timeout ≠ 0) :
    ((ts.map (TimedStep.most 0)).sum : Int) =
      (ts.map TimedStep.pulls).sum + (ts.map TimedStep.counted).sum := by
  induction ts with
  | nil => rfl
  | cons t ts ih =>
    have ht := TimedStep.most_eq (h t mem_cons_self)
    have hts := ih fun t' ht' ↦ h t' (mem_cons_of_mem t ht')
    simp only [map_cons, sum_cons, Nat.cast_add]
    omega

section

variable {repr : Value → String} {config : EngineConfig} {around : Surroundings}
variable {ctx : ModuleContext} {op : Operation}

theorem worstCase_le_iff {seconds : Nat} : worstCase repr config around ctx op ≤ (seconds : ℕ∞) ↔
    (∀ t ∈ timedStepsOf repr config around ctx op, t.timeout ≠ 0) ∧
      (((timedStepsOf repr config around ctx op).map TimedStep.pulls).sum : Int) +
        ((timedStepsOf repr config around ctx op).map TimedStep.counted).sum ≤ seconds := by
  rw [worstCase_eq]
  split
  · next hlimited =>
    have hsum := sum_most hlimited
    rw [Nat.cast_le, ← hsum, Nat.cast_le]
    exact (and_iff_right hlimited).symm
  · next hunlimited =>
    exact iff_of_false (by simp) fun h ↦ hunlimited h.1

theorem declaredOf_eq_zero {manifest : Value} (h : elements (stepSetOf manifest op) = []) :
    declaredOf manifest op = 0 := by
  rw [declaredOf, h]
  rfl

theorem stepSetOf_eq_none {manifest : Value} (h : manifest.isDict = false) :
    stepSetOf manifest op = .none := by
  have hsteps : canonicalStepSets manifest = [] := by
    rw [canonicalStepSets, get_eq_none h, get_eq_none h]
    rfl
  cases op with
  | action name inputs =>
    rw [stepSetOf, get_eq_none h]
    rfl
  | _ =>
    rw [stepSetOf, hsteps]
    · rfl
    · rintro _ _ ⟨⟩

theorem deriveTimeLimits_ok {manifest : Value} {limits : Option TimeLimits}
    (h : deriveTimeLimits manifest op = .ok limits) :
    (limits = none ∧ declaredOf manifest op + 600 ≤ globalHard) ∨
      ∃ hard, limits = some ⟨hard, max globalHard (hard - 300)⟩ ∧
        globalHard < declaredOf manifest op + 600 ∧
        hard = min limitCeiling (declaredOf manifest op + 600) ∧
        stepsBudget (elements (budgetSteps manifest op)) = .ok (declaredOf manifest op) := by
  rw [deriveTimeLimits] at h
  split at h
  · next hdict =>
    cases h
    have hnone : stepSetOf manifest op = .none := stepSetOf_eq_none (by simpa using hdict)
    refine .inl ⟨rfl, ?_⟩
    rw [declaredOf_eq_zero (by rw [hnone]; rfl)]
    decide
  · split at h
    · next steps heq =>
      obtain ⟨budget, hbudget, h⟩ := ExceptResult.bind_eq_ok.mp h
      have hdeclared : budget = declaredOf manifest op := by
        rw [stepsBudget_ok hbudget, declaredOf, ← budgetSteps_eq, heq]
        rfl
      subst hdeclared
      dsimp only at h
      split at h
      · next hle =>
        cases h
        exact .inl ⟨rfl, hle⟩
      · next hgt =>
        cases h
        refine .inr ⟨_, rfl, not_le.mp hgt, ?_, by rwa [heq]⟩
        split
        · next hcapped => exact (min_eq_left hcapped.le).symm
        · next hcapped => exact (min_eq_right (not_lt.mp hcapped)).symm
    · next hlist =>
      cases h
      refine .inl ⟨rfl, ?_⟩
      rw [declaredOf_eq_zero]
      · decide
      · rw [← budgetSteps_eq]
        cases hsteps : budgetSteps manifest op with
        | list steps => exact absurd hsteps (hlist steps)
        | _ => rfl

theorem capped_iff {budget : Int}
    (h : stepsBudget (elements (budgetSteps ctx.packManifest op)) = .ok budget) :
    Capped ctx op ↔ limitCeiling < budget + 600 := by
  constructor
  · rintro ⟨budget', hbudget', hlt⟩
    rw [h] at hbudget'
    cases hbudget'
    exact hlt
  · exact fun hlt ↦ ⟨budget, h, hlt⟩

/-- The derived limits cover the worst case exactly where the budget leaves room for the pulls. -/
theorem limitsCover_iff {limits : Option TimeLimits}
    (h : deriveTimeLimits ctx.packManifest op = .ok limits) :
    LimitsCover repr config around ctx op limits ↔ LeavesRoom repr config around ctx op := by
  have hglobal : globalHard = 7500 := rfl
  have hceiling : limitCeiling = 10200 := rfl
  have hvisibility : visibilityTimeout = 10800 := rfl
  rw [LeavesRoom]
  obtain ⟨rfl, hle⟩ | ⟨hard, rfl, hlt, hhard, hbudget⟩ := deriveTimeLimits_ok h
  · rw [LimitsCover, worstCase_le_iff, or_iff_right (by omega)]
    exact and_congr_right fun _ ↦ by omega
  · rw [LimitsCover, worstCase_le_iff, capped_iff hbudget]
    dsimp only
    constructor
    · rintro ⟨-, -, ⟨hlimited, hsum⟩ | hcapped⟩
      · by_cases hcapped : limitCeiling < declaredOf ctx.packManifest op + 600
        · exact .inl hcapped
        · exact .inr ⟨hlimited, by omega⟩
      · exact .inl hcapped
    · intro hroom
      refine ⟨by omega, by omega, ?_⟩
      obtain hcapped | ⟨hlimited, hsum⟩ := hroom
      · exact .inr hcapped
      · by_cases hcapped : limitCeiling < declaredOf ctx.packManifest op + 600
        · exact .inr hcapped
        · exact .inl ⟨hlimited, by omega⟩

end

def clusterContext (timeout : Int) : ModuleContext where
  moduleId := 1
  projectId := 1
  vars := []
  credentialsEnv := []
  packManifest := .dict [("schema_version", .int 1), ("name", .str "cluster"),
    ("version", .str "1.0.0"), ("kind", .str "container_image"),
    ("container_image", .dict [("registry_host", .str "ghcr.io"), ("repository", .str "org/cluster"),
      ("digest", .str ("sha256:" ++ String.ofList (List.replicate 64 '0')))]),
    ("steps", .dict [("apply", .list [.dict [("name", .str "build"), ("args", .list [.str "build"]),
      ("timeout_seconds", .int timeout)]])]),
    ("execution", .dict [("engine", .str "container")])]

def freshWorkspace : Surroundings where
  runner _ _ := ⟨[], none⟩
  markers := []
  writable _ := true
  outputsFile _ := none

/-- A step of five minutes is covered by the global limit. -/
theorem limitsCover_short :
    LimitsCover (fun _ ↦ "") {} freshWorkspace (clusterContext 300) .apply none :=
  (limitsCover_iff (by rfl)).mpr (.inr ⟨by decide +kernel, by decide +kernel⟩)

/-- A step of 5000 seconds has no limits of its own and may take 10000, over the global limit. -/
theorem long_step_uncovered :
    (validateArtifactManifest (fun _ ↦ "") none none (clusterContext 5000).packManifest).toBool =
        true ∧
      deriveTimeLimits (clusterContext 5000).packManifest .apply = .ok none ∧
      worstCase (fun _ ↦ "") {} freshWorkspace (clusterContext 5000) .apply = 10000 ∧
      ¬LimitsCover (fun _ ↦ "") {} freshWorkspace (clusterContext 5000) .apply none := by
  have htimed : timedStepsOf (fun _ ↦ "") {} freshWorkspace (clusterContext 5000) .apply =
      [⟨5000, 0, 0⟩] := by decide +kernel
  have hworst : worstCase (fun _ ↦ "") {} freshWorkspace (clusterContext 5000) .apply = 10000 := by
    rw [worstCase_eq, htimed]
    rfl
  refine ⟨by rfl, by rfl, hworst, ?_⟩
  rw [LimitsCover, hworst]
  exact not_le.mpr (by decide)

end BnkForge.Container
