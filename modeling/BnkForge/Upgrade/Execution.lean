import Mathlib.Data.List.Basic
import BnkForge.Lib.Transition

/-!
# BNK upgrade execution across crashes

`backend/services/bnk_upgrade_execution_service.py:40–229` with the commits of
`_write_upgrade` at `:583–602`. Each event is one committed write or one return of a step
executor, so a kill can fall between any two of them. What the executors find on the
cluster (Helm history, scan results, errors) is an input of the events; timestamps and
durations are not modelled. A write rejected by a lost lock ends the run like a kill.
-/

namespace BnkForge.Upgrade

open Transition

/-! ### The upgrade record -/

/-- `BnkUpgradeStatus`. -/
inductive UpgradeStatus
  | planning | ready | inProgress | healthCheck | completed | failed | cancelled | rollingBack
  | rolledBack
  deriving DecidableEq, Repr

/-- The `action` of a plan step; the loop runs no executor for any other action. -/
inductive StepAction
  | helmUpgrade | manifestApply | healthGate | crdWait | other (action : String)
  deriving DecidableEq, Repr

/-- One entry of `BnkUpgrade.plan`. -/
structure StepDef where
  step : Int
  action : StepAction
  label : String
  phase : String := ""
  releaseName : Option String := none
  releaseNamespace : Option String := none
  deriving DecidableEq, Repr

structure UpgradePlan where
  steps : List StepDef
  increasing : steps.Pairwise fun a b ↦ a.step < b.step

/-- The `status` an entry of `step_results` ends with. -/
inductive StepStatus
  | completed | failed
  deriving DecidableEq, Repr

/-- One entry of `BnkUpgrade.step_results`; `detail` is its output, health or error. -/
structure StepResult where
  step : Int
  label : String
  action : StepAction
  status : StepStatus
  detail : String
  deriving DecidableEq, Repr

/-- `BnkUpgrade.rollback_info`. -/
structure RollbackInfo where
  floRevision : Option Nat
  floReleaseName : String
  floNamespace : String
  deriving DecidableEq, Repr

/-- The columns of `bnk_upgrades` that `execute_upgrade` reads and writes. -/
structure UpgradeRow where
  plan : UpgradePlan
  status : UpgradeStatus
  installShape : String
  currentStep : Int
  stepResults : List StepResult
  preHealth : Option String
  postHealth : Option String
  healthGatePassed : Option Bool
  rollbackInfo : Option RollbackInfo
  rollbackAvailable : Bool
  errorMessage : Option String
  errorStep : Option Int

def readyRow (plan : UpgradePlan) (installShape : String) : UpgradeRow where
  plan := plan
  status := .ready
  installShape := installShape
  currentStep := 0
  stepResults := []
  preHealth := none
  postHealth := none
  healthGatePassed := none
  rollbackInfo := none
  rollbackAvailable := false
  errorMessage := none
  errorStep := none

/-! ### Runs of `execute_upgrade` -/

/-- Where a live worker stands between two commits. -/
inductive Position
  /-- `IN_PROGRESS` is committed, the rollback info is not captured yet. -/
  | capture
  /-- At the head of the loop with these steps to go. -/
  | loop (rest : List StepDef)
  /-- `current_step` is committed, the executor of `d` has not returned. -/
  | begun (d : StepDef) (rest : List StepDef)
  /-- The executor of `d` has returned, its result is not committed. -/
  | returned (d : StepDef) (detail : String) (rest : List StepDef)
  deriving DecidableEq, Repr

/-- The record, the worker executing it, if any, and the numbers of the steps that
executed to completion on the cluster, in order. -/
structure State where
  row : UpgradeRow
  worker : Option Position
  executed : List Int

inductive Event
  | start
  /-- `get_history` returned these revisions, or raised. -/
  | captureRollback (history : Option (List (Option Nat)))
  | next
  /-- A health gate commits the snapshot of one poll. -/
  | snapshot (health : String)
  /-- The last health gate commits that it passed. -/
  | gatePassed
  | executorReturned (detail : String)
  | executorRaised (error : String)
  | recordResult
  /-- The worker is killed. -/
  | kill
  deriving DecidableEq, Repr

def unsupportedMessage (installShape : String) : String :=
  "Automated upgrade execution is not yet supported for install_shape='" ++ installShape ++
    "' (helm/manual BNK install). Perform the Helm upgrade manually, then re-run " ++
    "Validate & Plan to confirm the result."

def rollbackInfoOf (plan : List StepDef) (history : Option (List (Option Nat))) :
    Option RollbackInfo := do
  let helmStep ← plan.find? fun d ↦ d.action == .helmUpgrade
  let floNamespace ← helmStep.releaseNamespace
  if floNamespace = "" then none
  else
    let revision ← (← history).getLast?
    pure ⟨revision, helmStep.releaseName.getD "flo", floNamespace⟩

/-- The first write of a run; `backend/services/bnk_upgrade_execution_service.py:64–105`. -/
def startRun (s : State) : Option State :=
  if s.row.status = .ready ∨ s.row.status = .inProgress then
    if s.row.installShape = "flo" then
      some { s with row := { s.row with status := .inProgress }, worker := some .capture }
    else
      some { s with
        row := { s.row with
          status := .failed, errorMessage := some (unsupportedMessage s.row.installShape) } }
  else none

/-- The write of `rollback_info`, when there is something to write. -/
def captureRollback (history : Option (List (Option Nat))) (row : UpgradeRow) : UpgradeRow :=
  match rollbackInfoOf row.plan.steps history with
  | some info => { row with rollbackInfo := some info, rollbackAvailable := true }
  | none => row

/-- One turn of the loop head: skip a step at or below `current_step`, commit the number of
the next one, or commit `COMPLETED` when no step is left. -/
def loopHead (s : State) : List StepDef → State
  | [] => { s with row := { s.row with status := .completed }, worker := none }
  | d :: rest =>
    if d.step ≤ s.row.currentStep then { s with worker := some (.loop rest) }
    else { s with row := { s.row with currentStep := d.step }, worker := some (.begun d rest) }

/-- The `step_results` entry of a step. -/
def resultOf (d : StepDef) (status : StepStatus) (detail : String) : StepResult :=
  ⟨d.step, d.label, d.action, status, detail⟩

/-- The failure write of a step whose executor raised. -/
def failStep (d : StepDef) (error : String) (row : UpgradeRow) : UpgradeRow :=
  { row with
    status := .failed
    errorMessage := some ("Step " ++ toString d.step ++ " failed: " ++ error)
    errorStep := some d.step
    stepResults := row.stepResults ++ [resultOf d .failed error] }

/-- One event of an upgrade's execution, `none` when it cannot happen. -/
def step (s : State) : Event → Option State
  | .start => if s.worker = none then startRun s else none
  | .captureRollback history =>
    match s.worker with
    | some .capture =>
      some { s with
        row := captureRollback history s.row, worker := some (.loop s.row.plan.steps) }
    | _ => none
  | .next =>
    match s.worker with
    | some (.loop rest) => some (loopHead s rest)
    | _ => none
  | .snapshot health =>
    match s.worker with
    | some (.begun d _) =>
      if d.action = .healthGate ∧ d.phase = "pre_upgrade" then
        some { s with row := { s.row with preHealth := some health } }
      else if d.action = .healthGate ∧ d.phase = "post_upgrade" then
        some { s with row := { s.row with postHealth := some health } }
      else none
    | _ => none
  | .gatePassed =>
    match s.worker with
    | some (.begun d _) =>
      if d.action = .healthGate ∧ d.phase = "post_upgrade" then
        some { s with row := { s.row with healthGatePassed := some true } }
      else none
    | _ => none
  | .executorReturned detail =>
    match s.worker with
    | some (.begun d rest) =>
      some { s with
        worker := some (.returned d detail rest), executed := s.executed ++ [d.step] }
    | _ => none
  | .executorRaised error =>
    match s.worker with
    | some (.begun d _) => some { s with row := failStep d error s.row, worker := none }
    | _ => none
  | .recordResult =>
    match s.worker with
    | some (.returned d detail rest) =>
      some { s with
        row := { s.row with
          stepResults := s.row.stepResults ++ [resultOf d .completed detail] }
        worker := some (.loop rest) }
    | _ => none
  | .kill => if s.worker.isSome then some { s with worker := none } else none

def initial (plan : UpgradePlan) (installShape : String) : State :=
  ⟨readyRow plan installShape, none, []⟩

/-! ### Completeness -/

/-- `step_results` has a `completed` entry for step `k`. -/
def Recorded (row : UpgradeRow) (k : Int) : Prop :=
  ∃ r ∈ row.stepResults, r.step = k ∧ r.status = .completed

def Complete (s : State) : Prop :=
  (s.row.plan.steps.map StepDef.step).Sublist s.executed ∧
    ∀ d ∈ s.row.plan.steps, Recorded s.row d.step

/-- The worker is between the commit of a step's number and the commit of its result. -/
def inWindow : Option Position → Bool
  | some (.begun _ _) | some (.returned _ _ _) => true
  | _ => false

def KillsOutsideWindow (s : State) (e : Event) : Prop :=
  e = .kill → inWindow s.worker = false

instance (s : State) (e : Event) : Decidable (KillsOutsideWindow s e) :=
  inferInstanceAs (Decidable (_ → _))

/-! ### What one event can do -/

/-- The outcomes of `step`, one constructor for each way an event ends. -/
inductive Moves (s : State) : Event → State → Prop
  | start (hw : s.worker = none) (hs : s.row.status = .ready ∨ s.row.status = .inProgress) :
      Moves s .start
        { s with row := { s.row with status := .inProgress }, worker := some .capture }
  | unsupported (hw : s.worker = none) (message : String) :
      Moves s .start
        { s with row := { s.row with status := .failed, errorMessage := some message } }
  | captured (hw : s.worker = some .capture) (history : Option (List (Option Nat))) :
      Moves s (.captureRollback history)
        { s with
          row := captureRollback history s.row, worker := some (.loop s.row.plan.steps) }
  | finish (hw : s.worker = some (.loop [])) :
      Moves s .next { s with row := { s.row with status := .completed }, worker := none }
  | skip {d : StepDef} {rest : List StepDef} (hw : s.worker = some (.loop (d :: rest)))
      (hle : d.step ≤ s.row.currentStep) : Moves s .next { s with worker := some (.loop rest) }
  | begin {d : StepDef} {rest : List StepDef} (hw : s.worker = some (.loop (d :: rest)))
      (hlt : s.row.currentStep < d.step) :
      Moves s .next
        { s with row := { s.row with currentStep := d.step }, worker := some (.begun d rest) }
  | health {e : Event} (hw : inWindow s.worker) (pre post : Option String) (gate : Option Bool)
      (he : e ≠ .kill) :
      Moves s e
        { s with
          row := { s.row with preHealth := pre, postHealth := post, healthGatePassed := gate } }
  | returned {d : StepDef} {rest : List StepDef} (hw : s.worker = some (.begun d rest))
      (detail : String) :
      Moves s (.executorReturned detail)
        { s with
          worker := some (.returned d detail rest), executed := s.executed ++ [d.step] }
  | raised {d : StepDef} {rest : List StepDef} (hw : s.worker = some (.begun d rest))
      (error : String) :
      Moves s (.executorRaised error) { s with row := failStep d error s.row, worker := none }
  | record {d : StepDef} {detail : String} {rest : List StepDef}
      (hw : s.worker = some (.returned d detail rest)) :
      Moves s .recordResult
        { s with
          row := { s.row with
            stepResults := s.row.stepResults ++ [resultOf d .completed detail] }
          worker := some (.loop rest) }
  | kill (hw : s.worker.isSome) : Moves s .kill { s with worker := none }

private theorem moves_of_loopHead {s : State} {rest : List StepDef}
    (hw : s.worker = some (.loop rest)) : Moves s .next (loopHead s rest) := by
  cases rest with
  | nil => exact .finish hw
  | cons d rest =>
    rw [loopHead]
    split
    · next hle => exact .skip hw hle
    · next hle => exact .begin hw (by omega)

private theorem moves_of_startRun {s t : State} (hw : s.worker = none)
    (h : startRun s = some t) : Moves s .start t := by
  unfold startRun at h
  split at h
  · next hs =>
    split at h
    · cases h
      exact .start hw hs
    · cases h
      exact .unsupported hw _
  · cases h

/-- `step` does nothing but the moves. -/
theorem moves_of_step {s t : State} {e : Event} (h : step s e = some t) : Moves s e t := by
  cases e with
  | start =>
    rw [step] at h
    split at h
    · next hw => exact moves_of_startRun hw h
    · cases h
  | captureRollback history =>
    rw [step] at h
    split at h
    · next hw =>
      cases h
      exact .captured hw history
    · cases h
  | next =>
    rw [step] at h
    split at h
    · next rest hw =>
      cases h
      exact moves_of_loopHead hw
    · cases h
  | snapshot health =>
    rw [step] at h
    split at h
    · next d rest hw =>
      have hin : inWindow s.worker := by rw [hw]; rfl
      split at h
      · cases h
        exact .health hin _ _ _ nofun
      · split at h
        · cases h
          exact .health hin _ _ _ nofun
        · cases h
    · cases h
  | gatePassed =>
    rw [step] at h
    split at h
    · next d rest hw =>
      have hin : inWindow s.worker := by rw [hw]; rfl
      split at h
      · cases h
        exact .health hin _ _ _ nofun
      · cases h
    · cases h
  | executorReturned detail =>
    rw [step] at h
    split at h
    · next d rest hw =>
      cases h
      exact .returned hw detail
    · cases h
  | executorRaised error =>
    rw [step] at h
    split at h
    · next d rest hw =>
      cases h
      exact .raised hw error
    · cases h
  | recordResult =>
    rw [step] at h
    split at h
    · next d detail rest hw =>
      cases h
      exact .record hw
    · cases h
  | kill =>
    rw [step] at h
    split at h
    · next hw =>
      cases h
      exact .kill hw
    · cases h

theorem captureRollback_eq (history : Option (List (Option Nat))) (row : UpgradeRow) :
    ∃ info available,
      captureRollback history row =
        { row with rollbackInfo := info, rollbackAvailable := available } := by
  unfold captureRollback
  split
  · exact ⟨_, _, rfl⟩
  · exact ⟨_, _, rfl⟩

theorem plan_of_step {s t : State} {e : Event} (h : step s e = some t) :
    t.row.plan = s.row.plan := by
  cases moves_of_step h with
  | captured hw history =>
    obtain ⟨info, available, heq⟩ := captureRollback_eq history s.row
    simp only [heq]
  | _ => rfl

end BnkForge.Upgrade
