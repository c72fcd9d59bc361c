import BnkForge.Lib.Transition
import BnkForge.Workspace.Files

/-!
# Plan and apply tasks on one workspace

`run_opentofu_plan` and `run_opentofu_apply`, `backend/tasks/opentofu_tasks.py:369–969`, as
far as they read and write the workspace and `vars_hash`. The module lock admits one task
at a time; edits of the settings may fall between any two of its steps. Exit codes, the
files of `tofu init` and the number of reconciled imports are inputs of the events.
-/

namespace BnkForge.Workspace

open Transition

/-- Where the running task stands. -/
inductive Position
  /-- `run_opentofu_plan`: workspace prepared. -/
  | planPrepared
  /-- `run_opentofu_plan`: providers and modules are installed. -/
  | planInitialized
  /-- `run_opentofu_plan`: `plan.out` is written, its hash is not recorded. -/
  | planWritten
  /-- `run_opentofu_apply`: workspace prepared, the saved plan not yet checked. -/
  | applyPrepared (forceNewPlan : Bool)
  /-- The saved plan is chosen, init not yet ensured. -/
  | savedInit
  /-- The saved plan is chosen, imports not yet reconciled. -/
  | savedReconcile
  /-- A new plan is needed, init not yet ensured. -/
  | newInit
  /-- A new plan is needed, imports not yet reconciled. -/
  | newReconcile
  /-- About to compute the new plan. -/
  | newPlan
  /-- About to run `tofu apply plan.out`. -/
  | applyReady (usedSavedPlan : Bool)
  /-- The stale plan is cleared, init not yet ensured. -/
  | retryInit
  /-- About to compute the plan of the retry. -/
  | retryPlan
  /-- About to run the second `tofu apply plan.out`. -/
  | retryReady
  deriving DecidableEq, Repr

/-- A module's settings, workspace and stored hash, and the task running on it, if any. -/
structure State (A : Type) where
  settings : Settings A
  files : Files A
  varsHash : Option String
  task : Option Position

/-- How `tofu apply` ends. -/
inductive ApplyOutcome
  | succeeded | failed | failedStale
  deriving DecidableEq, Repr

/-- What can happen next. -/
inductive Event (A : Type)
  | edit (settings : Settings A)
  | planStart
  | applyStart (forceNewPlan : Bool)
  /-- Check the saved plan and choose between it and a new one. -/
  | check
  /-- Skip or run `tofu init`; `none` says that it exits with an error. -/
  | ensureInit (result : Option InitFiles)
  | reconcile (imports : Nat)
  | runPlan (ok : Bool)
  | recordHash
  | runApply (outcome : ApplyOutcome)
  /-- The task ends here by an exception, a time limit, a lost lock or a kill. -/
  | abort

variable {A : Type} (S : Serializer A)

/-- `_ensure_workspace_initialized` and its copies: continue at `next`, or end the task. -/
def ensureInit (s : State A) (result : Option InitFiles) (next : Position) : State A :=
  if isInitialized s.files && (needsReinit S s.settings s.files).isNone then
    { s with task := some next }
  else
    match result with
    | some i => { s with files := initSucceeded S s.settings i s.files, task := some next }
    | none => { s with task := none }

/-- `run_plan`: a successful plan is written to `plan.out`, a failed one ends the task. -/
def runPlan (s : State A) (ok : Bool) (next : Position) : State A :=
  if ok then { s with files := { s.files with planOut := s.files.tfvars }, task := some next }
  else { s with task := none }

/-- The plan selection of `run_opentofu_apply`; `backend/tasks/opentofu_tasks.py:636–690`. -/
def choosePlan (s : State A) (forceNewPlan : Bool) : State A :=
  if hasSavedPlan s.files && (planInvalid S s.settings s.varsHash s.files).isNone &&
      !forceNewPlan then
    { s with task := some .savedInit }
  else
    { s with
      files := if hasSavedPlan s.files then clearPlan s.files else s.files
      task := some .newInit }

/-- `run_apply` and what follows it: a success consumes the plan, a stale plan is replaced
once, any other failure leaves `plan.out` where it is. -/
def runApply (s : State A) (outcome : ApplyOutcome) (retry : Bool) : State A :=
  match outcome, retry with
  | .succeeded, _ => { s with files := clearPlan s.files, task := none }
  | .failedStale, true => { s with files := clearPlan s.files, task := some .retryInit }
  | _, _ => { s with task := none }

/-- One event, `none` when it cannot happen. -/
def step (s : State A) (e : Event A) : Option (State A) :=
  match e, s.task with
  | .edit c, _ => some { s with settings := c }
  | .abort, some _ => some { s with task := none }
  | .planStart, none =>
    some { s with
      files := preparePersistentWorkspace s.settings s.files, task := some .planPrepared }
  | .ensureInit r, some .planPrepared => some (ensureInit S s r .planInitialized)
  | .runPlan ok, some .planInitialized => some (runPlan s ok .planWritten)
  | .recordHash, some .planWritten =>
    some { s with varsHash := some (computeVarsHash S s.settings), task := none }
  | .applyStart force, none =>
    some { s with
      files := preparePersistentWorkspace s.settings s.files
      task := some (.applyPrepared force) }
  | .check, some (.applyPrepared force) => some (choosePlan S s force)
  | .ensureInit r, some .savedInit => some (ensureInit S s r .savedReconcile)
  | .reconcile imports, some .savedReconcile =>
    some <| if imports = 0 then { s with task := some (.applyReady true) }
      else { s with files := clearPlan s.files, task := some .newInit }
  | .ensureInit r, some .newInit => some (ensureInit S s r .newReconcile)
  | .reconcile imports, some .newReconcile =>
    some <| if imports = 0 then { s with task := some .newPlan }
      else { s with files := clearPlan s.files, task := some .newPlan }
  | .runPlan ok, some .newPlan => some (runPlan s ok (.applyReady false))
  | .runApply outcome, some (.applyReady _) => some (runApply s outcome true)
  | .ensureInit r, some .retryInit => some (ensureInit S s r .retryPlan)
  | .runPlan ok, some .retryPlan => some (runPlan s ok .retryReady)
  | .runApply outcome, some .retryReady => some (runApply s outcome false)
  | _, _ => none

/-- A module before its first engine task. -/
def initial (c : Settings A) : State A := ⟨c, Files.empty, none, none⟩

/-! ### What each operation does to the plan -/

theorem planOut_preparePersistentWorkspace (c : Settings A) (w : Files A) :
    (preparePersistentWorkspace c w).planOut = w.planOut := by
  unfold preparePersistentWorkspace refreshSource
  split <;> rfl

/-- Ensuring init changes neither the plan nor the hash nor the settings, and it continues
at `next` or ends the task. -/
theorem ensureInit_spec (s : State A) (result : Option InitFiles) (next : Position) :
    (ensureInit S s result next).files.planOut = s.files.planOut ∧
      (ensureInit S s result next).varsHash = s.varsHash ∧
      (ensureInit S s result next).settings = s.settings ∧
      ((ensureInit S s result next).task = some next ∨
        (ensureInit S s result next).task = none) := by
  unfold ensureInit
  split
  · exact ⟨rfl, rfl, rfl, Or.inl rfl⟩
  · cases result with
    | some i => exact ⟨rfl, rfl, rfl, Or.inl rfl⟩
    | none => exact ⟨rfl, rfl, rfl, Or.inr rfl⟩

theorem ensureInit_skipped {s : State A} (hinit : isInitialized s.files = true)
    (hreinit : needsReinit S s.settings s.files = none) (result : Option InitFiles)
    (next : Position) : ensureInit S s result next = { s with task := some next } := by
  unfold ensureInit
  rw [hinit, hreinit]
  rfl

end BnkForge.Workspace
