import BnkForge.Lib.PythonText
import BnkForge.Lib.Transition

/-!
# Proxy migration runs

`backend/services/proxy_migration_service.py:83–324`, `:343–740` and the statuses of
`backend/models/enums.py:622–677`. Each call of the service is one event. What the cluster
answers during a call is an input of the event; a worker may also die in a step, before the
commit that follows it. The commands issued to the cluster are kept with the row as it was when
each was issued. Timestamps other than the two confirmations, output logs and result data are
written by the source and read by none of these functions, and are left out.
-/

namespace BnkForge.Migration

open Transition

/-! ### The run -/

/-- `ProxyMigrationStatus`. -/
inductive MigrationStatus
  | pending | inProgress | awaitingVerify | verifyFailed | awaitingCutover | cutoverConfirmed
  | awaitingTeardown | completed | failed | aborted | rolledBack
  deriving DecidableEq, Repr

/-- `ProxyMigrationStatus` as text. -/
def MigrationStatus.value : MigrationStatus → String
  | pending => "pending"
  | inProgress => "in_progress"
  | awaitingVerify => "awaiting_verify"
  | verifyFailed => "verify_failed"
  | awaitingCutover => "awaiting_cutover"
  | cutoverConfirmed => "cutover_confirmed"
  | awaitingTeardown => "awaiting_teardown"
  | completed => "completed"
  | failed => "failed"
  | aborted => "aborted"
  | rolledBack => "rolled_back"

/-- `ProxyMigrationStatus.terminal_states`. -/
def terminalStates : List MigrationStatus := [.completed, .failed, .aborted, .rolledBack]

/-- `MigrationStepStatus`. -/
inductive StepStatus
  | pending | running | completed | failed | skipped | blocked | awaitingConfirm
  deriving DecidableEq, Repr

inductive StepName
  | translate | deployBnk | verify | cutover | teardownOld
  deriving DecidableEq, Repr

def StepName.value : StepName → String
  | translate => "translate"
  | deployBnk => "deploy_bnk"
  | verify => "verify"
  | cutover => "cutover"
  | teardownOld => "teardown_old"

/-- `MIGRATION_STEPS`, in the order of the step index. -/
def migrationSteps : List StepName := [.translate, .deployBnk, .verify, .cutover, .teardownOld]

/-- A row of `proxy_migration_steps`. -/
structure StepRow where
  status : StepStatus := .pending
  errorMessage : Option String := none
  deriving DecidableEq, Repr

/-- `VerifyResult`, also the record in `verify_result`. -/
structure VerifyResult where
  programmed : Bool := false
  reachable : Bool := false
  passed : Bool := false
  reasons : List String := []
  deriving DecidableEq, Repr

/-- `teardown_info`; an empty object counts as none. -/
structure TeardownInfo where
  helmRelease : Option String := none
  helmNamespace : String := "default"
  kubectlResources : List String := []
  deriving DecidableEq, Repr

/-- A row of `proxy_migrations` with its steps, one for each name. -/
structure ProxyMigration where
  id : Nat
  translatedManifest : Option String
  bnkGatewayName : Option String
  bnkGatewayNamespace : Option String
  teardownInfo : Option TeardownInfo
  verifyResult : Option VerifyResult := none
  status : MigrationStatus := .pending
  currentStep : Option StepName := none
  errorMessage : Option String := none
  errorStep : Option StepName := none
  cutoverConfirmedBy : Option String := none
  cutoverConfirmedAt : Option Nat := none
  teardownConfirmedBy : Option String := none
  teardownConfirmedAt : Option Nat := none
  steps : StepName → StepRow := fun _ ↦ {}

/-- `create_migration`; the gateway's coordinates are derived from the source descriptor. -/
def createMigration (id : Nat) (combinedYaml gatewayName gatewayNamespace : String)
    (teardownInfo : Option TeardownInfo) : ProxyMigration where
  id := id
  translatedManifest := some combinedYaml
  bnkGatewayName := some gatewayName
  bnkGatewayNamespace := some gatewayNamespace
  teardownInfo := teardownInfo

/-- What a call has the cluster do. -/
inductive Command
  /-- `kubectl apply` of the translated manifest. -/
  | applyBnkManifest
  /-- Delete the gateway and the route of the migration. -/
  | deleteBnkManifest
  /-- Uninstall the old proxy's release. -/
  | helmUninstall (release releaseNamespace : String)
  /-- Delete a resource of the old proxy. -/
  | kubectlDelete (resource resourceNamespace : String)
  deriving DecidableEq, Repr

def Command.removesOld : Command → Bool
  | helmUninstall _ _ | kubectlDelete _ _ => true
  | _ => false

structure System where
  row : ProxyMigration
  issued : List (Command × ProxyMigration)

/-- What the cluster answers during a call, `error` where the answer is an exception. -/
structure Cluster where
  /-- `apply_bnk_manifest` returns the address, if one materialises. -/
  applied : Except String (Option String) := .ok none
  /-- `_check_gateway_programmed`. -/
  programmed : Except String (Bool × List String) := .ok (true, [])
  /-- `_check_backend_reachable`. -/
  reachable : Except String (Bool × List String) := .ok (true, [])
  /-- `delete_bnk_manifest`. -/
  deleted : Except String Unit := .ok ()
  /-- The cluster's row exists. -/
  found : Bool := true
  /-- `kubeconfig_for_cluster`. -/
  kubeconfig : Except String Unit := .ok ()
  /-- The worker dies while it executes this step. -/
  dies : Option StepName := none

/-! ### Step executors -/

inductive StepResult
  | done
  | awaitingConfirm
  | verifyFailed (error : String)
  deriving DecidableEq, Repr

abbrev Executed := System × Except String StepResult

def given (text : Option String) : Bool := text.any fun t ↦ !t.isEmpty

/-- `_verify_passed`. -/
def verifyPassed (m : ProxyMigration) : Bool := m.verifyResult.any VerifyResult.passed

/-- Have the cluster do something. -/
def System.issue (s : System) (command : Command) : System :=
  { s with issued := s.issued ++ [(command, s.row)] }

/-- `_step_translate`. -/
def stepTranslate (s : System) : Executed :=
  if given s.row.translatedManifest then (s, .ok .done)
  else (s, .error "translated_manifest is empty — cannot proceed")

/-- `_step_deploy_bnk`. -/
def stepDeployBnk (c : Cluster) (s : System) : Executed :=
  if given s.row.bnkGatewayName && given s.row.bnkGatewayNamespace then
    let s := s.issue .applyBnkManifest
    match c.applied with
    | .error exc => (s, .error exc)
    | .ok _ => ({ s with row := { s.row with status := .awaitingVerify } }, .ok .done)
  else (s, .error "bnk_gateway_name/bnk_gateway_namespace not set on migration")

/-- `verify_bnk_migration`: passed only where both checks answered so. -/
def verifyBnkMigration (c : Cluster) (gatewayName gatewayNamespace : Option String) :
    VerifyResult :=
  if given gatewayName && given gatewayNamespace then
    match c.programmed with
    | .error exc => { reasons := ["Gateway programmed check failed (default-deny): " ++ exc] }
    | .ok (false, reasons) =>
      { reasons := reasons ++ ["Skipping reachability probe: gateway not yet programmed"] }
    | .ok (true, reasons) =>
      match c.reachable with
      | .error exc =>
        { programmed := true
          reasons := reasons ++ ["Backend reachability probe failed (default-deny): " ++ exc] }
      | .ok (reachable, more) =>
        { programmed := true, reachable := reachable, passed := reachable, reasons := reasons ++ more }
  else { reasons := ["Gateway name/namespace not set — cannot verify (default-deny)"] }

def reasonsText (reasons : List String) : String :=
  if given (some ("; ".intercalate reasons)) then "; ".intercalate reasons else "unknown"

/-- `_step_verify`. -/
def stepVerify (c : Cluster) (s : System) : Executed :=
  let result := verifyBnkMigration c s.row.bnkGatewayName s.row.bnkGatewayNamespace
  let row := { s.row with verifyResult := some result }
  if result.passed then ({ s with row := { row with status := .awaitingCutover } }, .ok .awaitingConfirm)
  else ({ s with row := row }, .ok (.verifyFailed ("Verify failed: " ++ reasonsText result.reasons)))

/-- `_step_cutover`. -/
def stepCutover (s : System) : Executed :=
  if !verifyPassed s.row then
    (s, .error ("FAIL-CLOSED GATE: verify has not passed — cannot proceed to cutover. " ++
      "This should not be reachable; this is a defence-in-depth assertion."))
  else if s.row.cutoverConfirmedAt.isNone then (s, .ok .awaitingConfirm)
  else ({ s with row := { s.row with status := .awaitingTeardown } }, .ok .done)

/-- `_teardown_kubectl`: the resources one after the other, each `kind/name namespace`. An entry
without a word raises. -/
def teardownKubectl (s : System) : List String → Executed
  | [] => (s, .ok .done)
  | entry :: rest =>
    match Python.words entry.toList with
    | [] => (s, .error "list index out of range")
    | [resource] => teardownKubectl (s.issue (.kubectlDelete (String.ofList resource) "default")) rest
    | resource :: resourceNamespace :: _ =>
      teardownKubectl
        (s.issue (.kubectlDelete (String.ofList resource) (String.ofList resourceNamespace))) rest

/-- `_step_teardown_old`; a failure to uninstall the release is logged and not raised. -/
def stepTeardownOld (c : Cluster) (s : System) : Executed :=
  if !verifyPassed s.row then (s, .error "FAIL-CLOSED GATE: verify not passed — cannot teardown")
  else if s.row.cutoverConfirmedAt.isNone then
    (s, .error "Cutover has not been confirmed — cannot teardown old proxy")
  else if s.row.teardownConfirmedAt.isNone then (s, .ok .awaitingConfirm)
  else
    match s.row.teardownInfo with
    | none => (s, .ok .done)
    | some info =>
      if given info.helmRelease then
        (s.issue (.helmUninstall (info.helmRelease.getD "") info.helmNamespace), .ok .done)
      else if c.found && !info.kubectlResources.isEmpty then
        match c.kubeconfig with
        | .error exc => (s, .error exc)
        | .ok () => teardownKubectl s info.kubectlResources
      else (s, .ok .done)

/-- `_execute_step`. -/
def executeStep (c : Cluster) : StepName → System → Executed
  | .translate => stepTranslate
  | .deployBnk => stepDeployBnk c
  | .verify => stepVerify c
  | .cutover => stepCutover
  | .teardownOld => stepTeardownOld c

/-! ### The calls -/

inductive CallError
  /-- `BadRequestError`. -/
  | badRequest (message : String)
  /-- The exception of a step executor, raised again. -/
  | raised (name : StepName) (message : String)
  /-- The worker died. -/
  | died
  deriving DecidableEq, Repr

/-- What `execute_migration` returns. -/
inductive Reply
  | awaitingConfirm (name : StepName)
  | verifyFailed (name : StepName)
  | completed
  deriving DecidableEq, Repr

def ProxyMigration.setStep (m : ProxyMigration) (name : StepName) (step : StepRow) :
    ProxyMigration :=
  { m with steps := Function.update m.steps name step }

def startStep (m : ProxyMigration) (name : StepName) : ProxyMigration :=
  { m.setStep name { m.steps name with status := .running } with currentStep := some name }

def failedStatus : StepName → MigrationStatus
  | .verify => .verifyFailed
  | _ => .failed

/-- The steps that need a passed verification before they run. -/
def StepName.gated : StepName → Bool
  | cutover | teardownOld => true
  | _ => false

/-- The step ends with this status and text; nothing else of the row changes. -/
def ProxyMigration.finishStep (m : ProxyMigration) (name : StepName) (status : StepStatus)
    (errorMessage : Option String) : ProxyMigration :=
  m.setStep name { m.steps name with status := status, errorMessage := errorMessage }

def ProxyMigration.stop (m : ProxyMigration) (name : StepName) (status : MigrationStatus)
    (error : String) : ProxyMigration :=
  { m with status := status, errorMessage := some error, errorStep := some name }

def runExecutor (c : Cluster) (name : StepName) (s : System) :
    System × Option (Except CallError Reply) :=
  let s := { s with row := startStep s.row name }
  let text := (s.row.steps name).errorMessage
  match executeStep c name s with
  | (s', result) =>
    -- nothing of the executor is committed, but the cluster has been told
    if c.dies = some name then ({ s' with row := s.row }, some (.error .died))
    else
      match result with
      | .error exc =>
        let row := s'.row.finishStep name .failed (some exc)
        ({ s' with row := row.stop name (failedStatus name) exc },
          some (.error (.raised name exc)))
      | .ok .awaitingConfirm =>
        ({ s' with row := s'.row.finishStep name .awaitingConfirm text },
          some (.ok (.awaitingConfirm name)))
      | .ok (.verifyFailed error) =>
        ({ s' with row := (s'.row.finishStep name .failed text).stop name .verifyFailed error },
          some (.ok (.verifyFailed name)))
      | .ok .done => ({ s' with row := s'.row.finishStep name .completed text }, none)

/-- One round of the loop of `execute_migration`. -/
def runStep (c : Cluster) (name : StepName) (s : System) :
    System × Option (Except CallError Reply) :=
  match (s.row.steps name).status with
  | .completed | .skipped => (s, none)
  | .awaitingConfirm => (s, some (.ok (.awaitingConfirm name)))
  | .pending | .running | .failed | .blocked =>
    if name.gated && !verifyPassed s.row then
      (s, some (.error (.badRequest ("Cannot proceed to '" ++ name.value ++
        "': verify gate not passed. " ++
        "Run must be in AWAITING_CUTOVER status (reached only after passing verify)."))))
    else runExecutor c name s

/-- The loop of `execute_migration` over the given steps. -/
def runSteps (c : Cluster) : List StepName → System → System × Except CallError Reply
  | [], s => ({ s with row := { s.row with status := .completed } }, .ok .completed)
  | name :: rest, s =>
    match runStep c name s with
    | (s', none) => runSteps c rest s'
    | (s', some answer) => (s', answer)

/-- The statuses that `execute_migration` leaves as they are. -/
def inProgressGuard : List MigrationStatus :=
  [.inProgress, .cutoverConfirmed, .awaitingCutover, .awaitingTeardown]

/-- `execute_migration`. -/
def executeMigration (c : Cluster) (s : System) : System × Except CallError Reply :=
  let row := if s.row.status ∈ inProgressGuard then s.row else { s.row with status := .inProgress }
  runSteps c migrationSteps { s with row := row }

/-- `confirm_cutover`. -/
def confirmCutover (confirmedBy : String) (now : Nat) (s : System) :
    System × Except CallError Unit :=
  if s.row.status = .awaitingCutover then
    ({ s with
      row := { s.row.setStep .cutover { s.row.steps .cutover with status := .pending } with
        cutoverConfirmedBy := some confirmedBy
        cutoverConfirmedAt := some now
        status := .cutoverConfirmed } }, .ok ())
  else
    (s, .error (.badRequest ("Migration " ++ toString s.row.id ++ " is in status '" ++
      s.row.status.value ++ "' — confirm-cutover is only allowed when status is " ++
      "'awaiting_cutover'. Verify must pass before cutover can be confirmed.")))

/-- `confirm_teardown`. -/
def confirmTeardown (confirmedBy : String) (now : Nat) (s : System) :
    System × Except CallError Unit :=
  if s.row.status = .awaitingTeardown then
    ({ s with
      row := { s.row.setStep .teardownOld { s.row.steps .teardownOld with status := .pending } with
        teardownConfirmedBy := some confirmedBy
        teardownConfirmedAt := some now
        status := .inProgress } }, .ok ())
  else
    (s, .error (.badRequest ("Migration " ++ toString s.row.id ++ " is in status '" ++
      s.row.status.value ++ "' — confirm-teardown is only allowed when status is " ++
      "'awaiting_teardown'.")))

/-- The statuses that `abort_migration` takes to be behind the cutover. -/
def postCutover : List MigrationStatus := [.awaitingTeardown, .cutoverConfirmed]

/-- `abort_migration`. -/
def abortMigration (c : Cluster) (by_ : String) (s : System) : System × Except CallError Unit :=
  let ended (s : System) (status : MigrationStatus) (message : String) : System :=
    { s with row := { s.row with status := status, errorMessage := some message } }
  if s.row.status ∈ terminalStates then
    (s, .error (.badRequest ("Cannot abort migration " ++ toString s.row.id ++
      " in terminal status '" ++ s.row.status.value ++ "'")))
  else if s.row.status ∈ postCutover then
    (ended s .aborted ("Aborted by " ++ by_ ++ " after cutover was confirmed. " ++
      "DNS/VIP has already been switched to the BNK gateway. " ++
      "To revert: manually repoint DNS/VIP back to the old proxy. " ++
      "The old proxy is still running (teardown was not executed)."), .ok ())
  else if (s.row.steps .deployBnk).status = .completed then
    let s := s.issue .deleteBnkManifest
    match c.deleted with
    | .ok () =>
      (ended s .rolledBack ("Rolled back by " ++ by_ ++
        ": BNK manifest deleted, old proxy still serving."), .ok ())
    | .error exc =>
      (ended s .aborted ("Abort by " ++ by_ ++ ": BNK manifest delete failed (" ++ exc ++ "). " ++
        "Please delete the BNK gateway/httproute manually. Old proxy still serving."), .ok ())
  else (ended s .aborted ("Aborted by " ++ by_ ++ " (no BNK resources to clean up)."), .ok ())

/-- A call of the service. -/
inductive MigrationEvent
  | execute (c : Cluster)
  | confirmCutover (confirmedBy : String) (now : Nat)
  | confirmTeardown (confirmedBy : String) (now : Nat)
  | abort (c : Cluster) (by_ : String)

def migrationStep (s : System) : MigrationEvent → Option System
  | .execute c => some (executeMigration c s).1
  | .confirmCutover confirmedBy now => some (confirmCutover confirmedBy now s).1
  | .confirmTeardown confirmedBy now => some (confirmTeardown confirmedBy now s).1
  | .abort c by_ => some (abortMigration c by_ s).1

end BnkForge.Migration
