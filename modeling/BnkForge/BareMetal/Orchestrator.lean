import BnkForge.BareMetal.Topologies
import BnkForge.Lib.Transition
import Mathlib.Data.List.Sort
import Mathlib.Logic.Function.Basic

/-!
# Bare-metal deployments

`BareMetalDeploymentService` (`backend/services/bare_metal/orchestrator.py:331–726`). Every call reads
in one step and commits in another, and `execute_deployment` commits before and after each step of the
plan. Times, the snapshot of the release, the stamp on the host and the task id are left out: no call
decides anything by them.
-/

namespace BnkForge.BareMetal

/-! ### The tables -/

/-- `BareMetalDeploymentStatus`. -/
inductive DeploymentStatus
  | pending
  | discovering
  | planning
  | inProgress
  | paused
  | completed
  | failed
  | cancelled
  deriving DecidableEq, Repr

namespace DeploymentStatus

def value : DeploymentStatus → String
  | .pending => "pending"
  | .discovering => "discovering"
  | .planning => "planning"
  | .inProgress => "in_progress"
  | .paused => "paused"
  | .completed => "completed"
  | .failed => "failed"
  | .cancelled => "cancelled"

/-- `terminal_states`. -/
def isTerminal : DeploymentStatus → Bool
  | .completed | .failed | .cancelled => true
  | _ => false

end DeploymentStatus

/-- `DeploymentStepStatus`. -/
inductive StepStatus
  | pending
  | running
  | completed
  | failed
  | skipped
  deriving DecidableEq, Repr

structure DeploymentStep where
  stepIndex : Nat
  phase : String
  name : String
  description : String
  status : StepStatus
  connectivityRisk : Bool
  connectivityMechanism : Option String
  alreadyDone : Bool := false
  outputLog : Option String := none
  errorMessage : Option String := none
  exitCode : Option Int := none

structure Host where
  id : Int
  projectId : Int
  topology : Option String
  bmcIp : Option String := none
  deployDpuPciAddress : Option String := none

structure DeployableRelease where
  id : Int
  name : String
  isActive : Bool
  isDefault : Bool

/-- A row of `bare_metal_deployments` with its steps. -/
structure Deployment where
  id : Nat
  hostId : Int
  projectId : Int
  topology : String
  status : DeploymentStatus := .pending
  deployableReleaseId : Int
  resumeFromStep : Option Int
  triggeredBy : String
  selectedPhases : Option (List String)
  selectedSteps : Option (List String)
  steps : List DeploymentStep
  currentStepIndex : Nat := 0
  currentPhase : Option String := none
  errorMessage : Option String := none
  errorPhase : Option String := none
  errorStepIndex : Option Nat := none
  /-- The worker hosts of the request, which are not stored. -/
  workerHostIds : List Int := []
  /-- The last resume named no step, which is not stored. -/
  resumed : Bool := false

namespace Deployment

def hosts (d : Deployment) : List Int := d.hostId :: d.workerHostIds

def setStep (d : Deployment) (k : Nat) (change : DeploymentStep → DeploymentStep) : Deployment :=
  { d with steps := d.steps.map fun step ↦ if step.stepIndex = k then change step else step }

/-- `steps[start_index:]` of the sorted steps; a negative index counts from the end. -/
def remaining (d : Deployment) : List DeploymentStep :=
  let steps := d.steps.insertionSort fun a b ↦ a.stepIndex ≤ b.stepIndex
  match d.resumeFromStep.getD 0 with
  | .ofNat start => steps.drop start
  | .negSucc n => steps.drop (steps.length - (n + 1))

end Deployment

/-! ### `create_deployment` -/

/-- The arguments of `create_deployment`. -/
structure DeploymentRequest where
  hostId : Int
  projectId : Int
  workerHostIds : List Int := []
  resumeFromStep : Option Int := none
  triggeredBy : String := "user"
  selectedPhases : Option (List String) := none
  selectedSteps : Option (List String) := none
  deployableReleaseId : Option Int := none

/-- What the calls read besides the deployments. -/
structure Inventory where
  plans : TopologySteps
  hosts : List Host
  releases : List DeployableRelease

def isSet (text : Option String) : Bool := text.any fun t ↦ !t.isEmpty

/-- `_validate_topology_prerequisites`. -/
def validateTopologyPrerequisites (host : Host) : Except ServiceError Unit :=
  let missing :=
    (if isSet host.bmcIp then [] else ["bmc_ip (required for BMC rshim access)"]) ++
    (if isSet host.deployDpuPciAddress then []
      else ["deploy_dpu_pci_address (run discovery to auto-detect or set manually)"])
  if host.topology = some "dual_dpu_obmc" ∧ missing ≠ [] then
    .error (.badRequest ("dual_dpu_obmc deployment requires: " ++ ", ".intercalate missing ++
      ". Configure these in host settings before creating deployment."))
  else .ok ()

/-- `_resolve_deployable_release`. -/
def resolveDeployableRelease (releases : List DeployableRelease) :
    Option Int → Except ServiceError DeployableRelease
  | some id =>
    match releases.find? fun release ↦ release.id == id with
    | none => .error (.notFound "BnkDeployableRelease" [id])
    | some release =>
      if release.isActive then .ok release
      else .error (.badRequest ("BNK release '" ++ release.name ++ "' (id=" ++ toString release.id ++
        ") is not active"))
  | none =>
    match releases.find? DeployableRelease.isDefault with
    | some release => .ok release
    | none => .error (.badRequest "no default BNK release configured")

def activeDeployment (deployments : List Deployment) (targetHostIds : List Int) : Option Deployment :=
  deployments.find? fun d ↦ targetHostIds.contains d.hostId && !d.status.isTerminal

def planSteps (stepDefs : List StepDefinition) (selected : List String) : List DeploymentStep :=
  stepDefs.zipIdx.map fun (stepDef, idx) ↦
    { stepIndex := idx
      phase := stepDef.phase.value
      name := stepDef.name
      description := stepDef.description
      status := if selected.contains stepDef.name then .pending else .skipped
      connectivityRisk := stepDef.connectivityRisk
      connectivityMechanism := stepDef.connectivityMechanism }

/-- What `create_deployment` checks: the topology, its steps and the release. -/
def checkRequest (inv : Inventory) (deployments : List Deployment) (req : DeploymentRequest) :
    Except ServiceError (String × List StepDefinition × DeployableRelease) := do
  let some host := inv.hosts.find? fun h ↦ h.id == req.hostId && h.projectId == req.projectId
    | .error (.notFound "BareMetalHost" [req.hostId])
  let topology := host.topology.getD ""
  if topology.isEmpty then .error (.badRequest "Host topology not set — run discovery first")
  validateTopologyPrerequisites host
  let missing := req.workerHostIds.filter fun id ↦
    !inv.hosts.any fun h ↦ h.id == id && h.projectId == req.projectId
  if missing ≠ [] then
    .error (.notFound "BareMetalHost" (missing.dedup.insertionSort (· ≤ ·)))
  if let some active := activeDeployment deployments (req.hostId :: req.workerHostIds) then
    .error (.badRequest ("Host " ++ toString active.hostId ++
      " already has an active deployment (id=" ++ toString active.id ++ ", status=" ++
      active.status.value ++ ")"))
  let stepDefs ← getStepsForTopology inv.plans topology
  let release ← resolveDeployableRelease inv.releases req.deployableReleaseId
  return (topology, stepDefs, release)

/-- `create_deployment`: the row, which gets its id when it is inserted. -/
def createDeployment (inv : Inventory) (deployments : List Deployment) (req : DeploymentRequest) :
    Except ServiceError Deployment := do
  let (topology, stepDefs, release) ← checkRequest inv deployments req
  return {
    id := 0
    hostId := req.hostId
    projectId := req.projectId
    topology := topology
    deployableReleaseId := release.id
    resumeFromStep := req.resumeFromStep
    triggeredBy := req.triggeredBy
    selectedPhases := req.selectedPhases
    selectedSteps := req.selectedSteps
    steps := planSteps stepDefs
      (determineSelectedSteps stepDefs req.selectedPhases req.selectedSteps)
    workerHostIds := req.workerHostIds }

/-! ### `resume_deployment` and `cancel_deployment` -/

/-- What `resume_deployment` writes: where to resume from, the failed steps to do again, and whether no
step was named. -/
structure Resumption where
  resumeFromStep : Int
  failedSteps : List Nat
  resumed : Bool

/-- `resume_deployment`. -/
def resumeDeployment (d : Deployment) (fromStep : Option Int) : Except ServiceError Resumption :=
  if d.status = .failed ∨ d.status = .paused then
    let start := fromStep.getD ((d.errorStepIndex.map Int.ofNat).getD 0)
    .ok { resumeFromStep := start
          failedSteps := (d.steps.filter fun step ↦
            start ≤ step.stepIndex && step.status == .failed).map DeploymentStep.stepIndex
          resumed := fromStep.isNone }
  else .error (.badRequest ("Cannot resume deployment in status '" ++ d.status.value ++
    "' — must be 'failed' or 'paused'"))

/-- The row that `resume_deployment` leaves. -/
def Deployment.resume (d : Deployment) (r : Resumption) : Deployment :=
  { d with
    resumeFromStep := some r.resumeFromStep
    errorMessage := none
    errorPhase := none
    errorStepIndex := none
    status := .pending
    resumed := r.resumed
    steps := d.steps.map fun step ↦
      if step.stepIndex ∈ r.failedSteps then
        { step with status := .pending, errorMessage := none, outputLog := none, exitCode := none }
      else step }

/-- `cancel_deployment` cancels the deployment. -/
def cancelDeployment (d : Deployment) : Except ServiceError Unit :=
  if d.status.isTerminal then
    .error (.badRequest ("Cannot cancel deployment in terminal status '" ++ d.status.value ++ "'"))
  else .ok ()

/-! ### `execute_deployment` -/

/-- What `_execute_step` returns. It stands in for the services of the phases, which are plugged in. -/
structure StepResult where
  exitCode : Int := 0
  output : String := ""
  skipped : Bool := false

/-- `_execute_step` as it is. -/
def executeStep (step : DeploymentStep) : StepResult :=
  { output := "Step " ++ step.name ++ " executed (placeholder)" }

def Deployment.takeStep (d : Deployment) (k : Nat) : Deployment :=
  { d.setStep k fun step ↦ { step with status := .running } with
    currentStepIndex := k
    currentPhase := (d.steps.find? fun step ↦ step.stepIndex == k).map DeploymentStep.phase }

def Deployment.finishStep (d : Deployment) (k : Nat) (result : StepResult) : Deployment :=
  d.setStep k fun step ↦
    if result.skipped then { step with status := .skipped, alreadyDone := true }
    else { step with
      status := .completed, exitCode := some result.exitCode, outputLog := some result.output }

def Deployment.failStep (d : Deployment) (k : Nat) (message : String) : Deployment :=
  { d.setStep k fun step ↦ { step with status := .failed, errorMessage := some message } with
    status := .failed
    errorMessage := some message
    errorPhase := (d.steps.find? fun step ↦ step.stepIndex == k).map DeploymentStep.phase
    errorStepIndex := some k }

/-! ### The system -/

inductive Call
  | creating (d : Deployment)
  | cancelling (id : Nat)
  | resuming (id : Nat) (resumption : Resumption)
  /-- `execute_deployment` has read the deployment in this status. -/
  | starting (id : Nat) (loaded : DeploymentStatus)
  | started (id : Nat)
  /-- The step that is being executed, and the steps that are left. -/
  | running (id : Nat) (resumed : Bool) (current : Option Nat) (left : List Nat)

structure Orchestrator where
  deployments : List Deployment
  calls : Nat → Option Call

def Orchestrator.init : Orchestrator := ⟨[], fun _ ↦ none⟩

namespace Orchestrator

def setCall (s : Orchestrator) (n : Nat) (call : Option Call) : Orchestrator :=
  { s with calls := Function.update s.calls n call }

def start (s : Orchestrator) (n : Nat) (call : Call) : Option Orchestrator :=
  if (s.calls n).isSome then none else some (s.setCall n (some call))

/-- `get_deployment`. -/
def find (s : Orchestrator) (id : Nat) : Option Deployment := s.deployments.find? fun d ↦ d.id == id

def update (s : Orchestrator) (id : Nat) (change : Deployment → Deployment) : Orchestrator :=
  { s with deployments := s.deployments.map fun d ↦ if d.id = id then change d else d }

end Orchestrator

inductive DeploymentEvent
  | readCreate (n : Nat) (req : DeploymentRequest)
  | commitCreate (n id : Nat)
  | readCancel (n id : Nat)
  | commitCancel (n : Nat)
  | readResume (n id : Nat) (fromStep : Option Int)
  | commitResume (n : Nat)
  | readExecute (n id : Nat)
  /-- The deployment is committed to be in progress. -/
  | commitStart (n : Nat)
  /-- The steps are read. -/
  | load (n : Nat)
  /-- The next step is committed to be running, and `_execute_step` is called. -/
  | take (n : Nat)
  | finish (n : Nat) (result : StepResult)
  | fail (n : Nat) (message : String)
  | complete (n : Nat)
  /-- The call ends without committing anything more. -/
  | stop (n : Nat)

def deploymentStep (inv : Inventory) (s : Orchestrator) : DeploymentEvent → Option Orchestrator
  | .readCreate n req =>
    (createDeployment inv s.deployments req).toOption.bind fun d ↦ s.start n (.creating d)
  | .commitCreate n id =>
    match s.calls n with
    | some (.creating d) =>
      if (s.find id).isSome then none
      else some ({ s with deployments := s.deployments ++ [{ d with id := id }] }.setCall n none)
    | _ => none
  | .readCancel n id =>
    (s.find id).bind fun d ↦ (cancelDeployment d).toOption.bind fun _ ↦ s.start n (.cancelling id)
  | .commitCancel n =>
    match s.calls n with
    | some (.cancelling id) =>
      some ((s.update id fun d ↦ { d with status := .cancelled }).setCall n none)
    | _ => none
  | .readResume n id fromStep =>
    (s.find id).bind fun d ↦ (resumeDeployment d fromStep).toOption.bind fun r ↦
      s.start n (.resuming id r)
  | .commitResume n =>
    match s.calls n with
    | some (.resuming id r) => some ((s.update id fun d ↦ d.resume r).setCall n none)
    | _ => none
  | .readExecute n id => (s.find id).bind fun d ↦ s.start n (.starting id d.status)
  | .commitStart n =>
    match s.calls n with
    | some (.starting id loaded) =>
      -- A status that has not changed is not written.
      let change := fun d : Deployment ↦
        if loaded = .inProgress then d else { d with status := .inProgress }
      some ((s.update id change).setCall n (some (.started id)))
    | _ => none
  | .load n =>
    match s.calls n with
    | some (.started id) => (s.find id).map fun d ↦
        s.setCall n (some (.running id d.resumed none (d.remaining.map DeploymentStep.stepIndex)))
    | _ => none
  | .take n =>
    match s.calls n with
    | some (.running id resumed none (k :: left)) =>
      some ((s.update id fun d ↦ d.takeStep k).setCall n (some (.running id resumed (some k) left)))
    | _ => none
  | .finish n result =>
    match s.calls n with
    | some (.running id resumed (some k) left) =>
      some ((s.update id fun d ↦ d.finishStep k result).setCall n
        (some (.running id resumed none left)))
    | _ => none
  | .fail n message =>
    match s.calls n with
    | some (.running id _ (some k) _) =>
      some ((s.update id fun d ↦ d.failStep k message).setCall n none)
    | _ => none
  | .complete n =>
    match s.calls n with
    | some (.running id _ none []) =>
      some ((s.update id fun d ↦ { d with status := .completed }).setCall n none)
    | _ => none
  | .stop n => some (s.setCall n none)

end BnkForge.BareMetal
