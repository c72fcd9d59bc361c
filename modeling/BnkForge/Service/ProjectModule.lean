import BnkForge.Module.Lifecycle

/-!
# The operations of the project module service

`submit_init`, `submit_plan`, `submit_apply`, `submit_destroy`, `deploy_module` and
`retry_deployment` (`backend/services/project_module_service.py:801–1521`) with the refusals of
`backend/services/execution/task_dispatch.py:43–111`. A call is its module afterwards, the
tasks it handed to Celery and its result: what it committed before it raised stays.
Snapshots, deployment logs and Celery ids are not modelled.
-/

namespace BnkForge.Service

open ModuleStatus BnkForge.Module

/-! ### Modules and calls -/

/-- A catalog entry; `executionEngine` is stripped and in lower case. -/
structure LibraryModule where
  name : String
  gitSource : String
  executionEngine : String
  deriving DecidableEq, Repr

structure ManagedModule where
  id : Nat
  enabled : Bool
  library : Option LibraryModule
  life : ModuleLife
  deriving DecidableEq, Repr

/-- What a call meets outside the database: the error of the broker and that of the
saved-plan check, where they raise. -/
structure Environment where
  broker : Option String
  planCheck : Option String
  deriving DecidableEq, Repr

/-- What an operation raises. -/
inductive ServiceError
  | badRequest (message : String)
  /-- A `ValueError` of the task dispatch. -/
  | refused (message : String)
  /-- An attribute of a missing library module is read. -/
  | attributeError
  /-- An error of the broker or of the workspace. -/
  | external (message : String)
  | illegalTransition (moduleId : Nat) (fromStatus toStatus : ModuleStatus)
  deriving DecidableEq, Repr

structure Call where
  module : ManagedModule
  /-- The tasks handed to Celery. -/
  dispatched : List TaskType
  result : Except ServiceError Unit

def Call.reject (m : ManagedModule) (message : String) : Call := ⟨m, [], .error (.badRequest message)⟩

def statusValue : ModuleStatus → String
  | notInitialized => "not_initialized"
  | initialized => "initialized"
  | initializing => "initializing"
  | initFailed => "init_failed"
  | planning => "planning"
  | planned => "planned"
  | planFailed => "plan_failed"
  | applying => "applying"
  | applied => "applied"
  | applyFailed => "apply_failed"
  | destroying => "destroying"
  | destroyed => "destroyed"
  | destroyFailed => "destroy_failed"
  | failed => "failed"

/-! ### Dispatch -/

/-- `explicit_execution_engines()`, sorted. -/
def executionEngines : List String :=
  ["ansible", "cli-bnkctl", "container", "kubernetes-direct", "opentofu", "operator", "ssh", "tmos"]

/-- The name of an operation in `_assert_module_runnable`. -/
def operationName : TaskType → String
  | .init => "init"
  | .plan => "plan"
  | .apply => "apply"
  | .destroy => "destroy"

/-- `_assert_module_runnable`: destroys are not gated. -/
def assertModuleRunnable (m : ManagedModule) (type : TaskType) : Except ServiceError Unit :=
  if type = .destroy ∨ m.enabled then .ok ()
  else
    .error (.refused ("Module " ++ toString m.id ++ " is disabled; refusing to dispatch " ++
      operationName type ++ ". Enable it first."))

/-- The refusal of `_get_explicit_execution_engine`: an empty engine means the default. -/
def checkExecutionEngine (m : ManagedModule) : Except ServiceError Unit :=
  match m.library with
  | none => .ok ()
  | some lib =>
    if lib.executionEngine = "" ∨ lib.executionEngine ∈ executionEngines then .ok ()
    else
      .error (.refused ("Unrecognized execution_engine '" ++ lib.executionEngine ++
        "' for module " ++ toString m.id ++ ". Supported engines: ['" ++
        "', '".intercalate executionEngines ++ "']"))

/-- `dispatch_init`, `dispatch_plan`, `dispatch_apply` and `dispatch_destroy`. -/
def dispatchTask (env : Environment) (m : ManagedModule) (type : TaskType) :
    Except ServiceError Unit := do
  assertModuleRunnable m type
  checkExecutionEngine m
  match env.broker with
  | none => pure ()
  | some message => throw (.external message)

def createTask (m : ManagedModule) (type : TaskType) (autoApply : Bool) : ManagedModule :=
  { m with life := { m.life with tasks := m.life.tasks ++ [queuedTask type autoApply] } }

def setStatus (m : ManagedModule) (status : ModuleStatus) : ManagedModule :=
  { m with life := { m.life with status := status } }

/-! ### The submit operations -/

/-- The common tail of the submit operations: the task row and the status are committed
before the task is handed to Celery. -/
def submitTask (env : Environment) (m : ManagedModule) (type : TaskType) (status : ModuleStatus) :
    Call :=
  let m' := setStatus (createTask m type false) status
  match dispatchTask env m type with
  | .error e => ⟨m', [], .error e⟩
  | .ok () => ⟨m', [type], .ok ()⟩

/-- `submit_init`. -/
def submitInit (env : Environment) (m : ManagedModule) : Call :=
  match m.library with
  | none => .reject m "Module has no library module associated"
  | some lib =>
    if lib.gitSource = "" then .reject m "Module library has no git source configured"
    else if m.enabled = false then .reject m "Module is disabled — enable it before running init"
    else submitTask env m .init initializing

/-- The errors of `_validate_for_operation`. -/
def validateForOperation (m : ManagedModule) : List String :=
  (if m.enabled then [] else ["Module is disabled — enable it before running plan or apply"]) ++
    match m.library with
    | none => ["Module has no library module associated"]
    | some lib => if lib.gitSource = "" then ["Module library has no git source configured"] else []

def validationMessage (errors : List String) : String :=
  "Module validation failed:\n" ++ "\n".intercalate (errors.map fun e ↦ "- " ++ e)

/-- `submit_plan`. -/
def submitPlan (env : Environment) (m : ManagedModule) : Call :=
  if validateForOperation m ≠ [] then .reject m (validationMessage (validateForOperation m))
  else submitTask env m .plan planning

/-- `submit_apply`; `unmet` are the messages of `check_module_dependencies`. -/
def submitApply (env : Environment) (unmet : List String) (m : ManagedModule) : Call :=
  if validateForOperation m ≠ [] then .reject m (validationMessage (validateForOperation m))
  else if unmet ≠ [] then
    .reject m ("Cannot apply: dependencies not met. Please deploy these modules first: " ++
      ", ".intercalate unmet)
  else submitTask env m .apply applying

/-- `submit_destroy`. -/
def submitDestroy (env : Environment) (m : ManagedModule) : Call :=
  if m.life.status ∈ destroyable then submitTask env m .destroy destroying
  else .reject m "Can only destroy initialized, planned, applied, or failed modules"

/-! ### `deploy_module` and `retry_deployment` -/

/-- `transition_module_status` without a lock. -/
def transition (m : ManagedModule) (status : ModuleStatus) : Except ServiceError ManagedModule :=
  if isLegalTransition m.life.status status then .ok (setStatus m status)
  else .error (.illegalTransition m.id m.life.status status)

/-- The common tail of both operations: the task row is committed and the task handed to
Celery before the transition is checked. -/
def dispatchThenTransition (env : Environment) (m : ManagedModule) (type : TaskType)
    (autoApply : Bool) (status : ModuleStatus) : Call :=
  let m' := createTask m type autoApply
  match dispatchTask env m type with
  | .error e => ⟨m', [], .error e⟩
  | .ok () =>
    match transition m' status with
    | .error e => ⟨m', [type], .error e⟩
    | .ok m'' => ⟨m'', [type], .ok ()⟩

/-- `deploy_module`; `backend/services/project_module_service.py:1378`. -/
def deployModule (env : Environment) (m : ManagedModule) : Call :=
  if m.enabled = false then .reject m "Module is disabled — enable it before deploying"
  else if m.life.status = applying ∨ m.life.status = initializing ∨ m.life.status = planning then
    .reject m ("Module is already deploying (current status: " ++ statusValue m.life.status ++ ")")
  else if m.life.status = notInitialized then dispatchThenTransition env m .init true initializing
  else dispatchThenTransition env m .apply false applying

/-- The statuses that `retry_deployment` accepts. -/
def retryable : List ModuleStatus := [failed, applyFailed, initFailed, destroyFailed]

/-- `retry_deployment`; `backend/services/project_module_service.py:1443`. The log line read
off the library module and the check of the saved plan come after the task row is committed. -/
def retryDeployment (env : Environment) (m : ManagedModule) : Call :=
  if m.enabled = false then .reject m "Module is disabled — enable it before retrying"
  else if m.life.status ∉ retryable then
    .reject m
      ("Can only retry failed deployments. Current status: " ++ statusValue m.life.status)
  else
    let type := if m.life.status = initFailed then TaskType.init else TaskType.apply
    match m.library with
    | none => ⟨createTask m type false, [], .error .attributeError⟩
    | some _ =>
      match type, env.planCheck with
      | .apply, some message => ⟨createTask m type false, [], .error (.external message)⟩
      | _, _ =>
        dispatchThenTransition env m type false
          (if m.life.status = initFailed then initializing else applying)

/-! ### Atomicity on error -/

/-- A call that raises has handed no task to Celery and left no task row that is pending,
queued or in progress behind. -/
def AtomicOnError (m : ManagedModule) (c : Call) : Prop :=
  ∀ e, c.result = .error e →
    c.dispatched = [] ∧ ∀ t ∈ c.module.life.tasks.drop m.life.tasks.length, t.status.active = false

def EngineRecognized (m : ManagedModule) : Prop :=
  ∀ lib ∈ m.library, lib.executionEngine = "" ∨ lib.executionEngine ∈ executionEngines

theorem atomicOnError_reject (m : ManagedModule) (message : String) :
    AtomicOnError m (.reject m message) := by
  intro e _
  constructor
  · rfl
  · rw [Call.reject, List.drop_length]
    exact List.forall_mem_nil _

theorem not_atomicOnError_createTask (m : ManagedModule) (type : TaskType) (autoApply : Bool)
    (dispatched : List TaskType) (e : ServiceError) :
    ¬ AtomicOnError m ⟨createTask m type autoApply, dispatched, .error e⟩ := by
  intro h
  have hleft := (h e rfl).2 (queuedTask type autoApply) (by simp [createTask])
  cases hleft

theorem atomicOnError_ok (m m' : ManagedModule) (dispatched : List TaskType) :
    AtomicOnError m ⟨m', dispatched, .ok ()⟩ := by
  intro e he
  cases he

private theorem checkExecutionEngine_ok_iff (m : ManagedModule) :
    checkExecutionEngine m = .ok () ↔ EngineRecognized m := by
  unfold checkExecutionEngine EngineRecognized
  cases m.library with
  | none => simp
  | some lib =>
    simp only [Option.mem_some_iff, forall_eq']
    split
    · next h => exact iff_of_true rfl h
    · next h => exact iff_of_false nofun h

theorem dispatchTask_ok_iff (env : Environment) (m : ManagedModule) {type : TaskType}
    (htype : type ≠ .destroy) :
    dispatchTask env m type = .ok () ↔
      m.enabled = true ∧ EngineRecognized m ∧ env.broker = none := by
  rw [← checkExecutionEngine_ok_iff]
  unfold dispatchTask assertModuleRunnable
  cases m.enabled with
  | false => simp [htype, bind, Except.bind]
  | true =>
    cases checkExecutionEngine m with
    | error e => simp [bind, Except.bind]
    | ok u =>
      cases env.broker with
      | none => simp [bind, Except.bind, pure, Except.pure]
      | some message => simp [bind, Except.bind, throw, throwThe, MonadExceptOf.throw]

theorem atomicOnError_dispatchThenTransition_iff (env : Environment) (m : ManagedModule)
    (type : TaskType) (autoApply : Bool) (status : ModuleStatus) :
    AtomicOnError m (dispatchThenTransition env m type autoApply status) ↔
      dispatchTask env m type = .ok () ∧ isLegalTransition m.life.status status = true := by
  unfold dispatchThenTransition
  cases dispatchTask env m type with
  | error e => simp [not_atomicOnError_createTask]
  | ok u =>
    cases hlegal : isLegalTransition m.life.status status with
    | false =>
      have hraise : transition (createTask m type autoApply) status =
          .error (.illegalTransition m.id m.life.status status) := by
        simp [transition, createTask, hlegal]
      simp [hraise, not_atomicOnError_createTask]
    | true =>
      have hok : transition (createTask m type autoApply) status =
          .ok (setStatus (createTask m type autoApply) status) := by
        simp [transition, createTask, hlegal]
      simp [hok, atomicOnError_ok]

private theorem atomicOnError_deployModule_iff (env : Environment) (m : ManagedModule) :
    AtomicOnError m (deployModule env m) ↔
      m.enabled = false ∨
        (m.life.status = applying ∨ m.life.status = initializing ∨ m.life.status = planning) ∨
        (m.life.status ∉ [destroying, destroyed, destroyFailed, failed] ∧ EngineRecognized m ∧
          env.broker = none) := by
  unfold deployModule
  split
  · next h => exact iff_of_true (atomicOnError_reject m _) (Or.inl h)
  · next hen =>
    have hen : m.enabled = true := by simpa using hen
    split
    · next h => exact iff_of_true (atomicOnError_reject m _) (Or.inr (Or.inl h))
    · next hbusy =>
      rw [hen, or_iff_right (by decide), or_iff_right hbusy]
      split
      · next hni =>
        have hleft : notInitialized ∉ [destroying, destroyed, destroyFailed, failed] := by decide
        rw [atomicOnError_dispatchThenTransition_iff, dispatchTask_ok_iff env m (by decide), hen, hni,
          and_iff_left (by decide), and_iff_right rfl, and_iff_right hleft]
      · next hni =>
        have hlegal : isLegalTransition m.life.status applying = true ↔
            m.life.status ∉ [destroying, destroyed, destroyFailed, failed] := by
          revert hbusy hni
          cases m.life.status <;> decide
        rw [atomicOnError_dispatchThenTransition_iff, dispatchTask_ok_iff env m (by decide), hen,
          hlegal, and_iff_right rfl]
        exact and_comm

private theorem atomicOnError_retryDeployment_iff (env : Environment) (m : ManagedModule) :
    AtomicOnError m (retryDeployment env m) ↔
      m.enabled = false ∨ m.life.status ∉ retryable ∨
        (m.life.status ≠ failed ∧ m.life.status ≠ destroyFailed ∧ m.library ≠ none ∧
          (m.life.status = applyFailed → env.planCheck = none) ∧ EngineRecognized m ∧
          env.broker = none) := by
  unfold retryDeployment
  split
  · next h => exact iff_of_true (atomicOnError_reject m _) (Or.inl h)
  · next hen =>
    have hen : m.enabled = true := by simpa using hen
    split
    · next h => exact iff_of_true (atomicOnError_reject m _) (Or.inr (Or.inl h))
    · next hretry =>
      rw [not_not] at hretry
      rw [hen, or_iff_right (by decide), or_iff_right (not_not_intro hretry)]
      cases hlib : m.library with
      | none => exact iff_of_false (not_atomicOnError_createTask m _ _ _ _) fun h ↦ h.2.2.1 rfl
      | some lib =>
        by_cases hinit : m.life.status = initFailed
        · simp only [hinit, if_true]
          rw [atomicOnError_dispatchThenTransition_iff, dispatchTask_ok_iff env m (by decide), hinit,
            hen]
          simp [isLegalTransition, allowedTransitions, initOutcomes]
        · simp only [hinit, if_false]
          cases hplan : env.planCheck with
          | some message =>
            refine iff_of_false (not_atomicOnError_createTask m _ _ _ _) ?_
            rintro ⟨hfailed, hdestroy, -, hcheck, -, -⟩
            -- of the statuses that can be retried, only `apply_failed` is left
            have happly : m.life.status = applyFailed := by
              revert hretry hinit hfailed hdestroy
              cases m.life.status <;> decide
            exact absurd (hcheck happly) (Option.some_ne_none message)
          | none =>
            have hlegal : isLegalTransition m.life.status applying = true ↔
                m.life.status ≠ failed ∧ m.life.status ≠ destroyFailed := by
              revert hretry hinit
              cases m.life.status <;> decide
            rw [atomicOnError_dispatchThenTransition_iff, dispatchTask_ok_iff env m (by decide), hen,
              hlegal, and_iff_right rfl]
            constructor
            · rintro ⟨⟨hengine, hbroker⟩, hfailed, hdestroy⟩
              exact ⟨hfailed, hdestroy, Option.some_ne_none lib, fun _ ↦ rfl, hengine, hbroker⟩
            · rintro ⟨hfailed, hdestroy, -, -, hengine, hbroker⟩
              exact ⟨⟨hengine, hbroker⟩, hfailed, hdestroy⟩

/-- `deploy_module` and `retry_deployment` are atomic on error exactly when their guards reject
the call or nothing raises after the task row is committed: the transition is legal, the
engine known, the broker up and, for a retry, the library module there and the saved plan
readable. -/
theorem deploy_retry_atomicOnError_iff (env : Environment) (m : ManagedModule) :
    (AtomicOnError m (deployModule env m) ↔
      m.enabled = false ∨
        (m.life.status = applying ∨ m.life.status = initializing ∨ m.life.status = planning) ∨
        (m.life.status ∉ [destroying, destroyed, destroyFailed, failed] ∧ EngineRecognized m ∧
          env.broker = none)) ∧
    (AtomicOnError m (retryDeployment env m) ↔
      m.enabled = false ∨ m.life.status ∉ retryable ∨
        (m.life.status ≠ failed ∧ m.life.status ≠ destroyFailed ∧ m.library ≠ none ∧
          (m.life.status = applyFailed → env.planCheck = none) ∧ EngineRecognized m ∧
          env.broker = none)) :=
  ⟨atomicOnError_deployModule_iff env m, atomicOnError_retryDeployment_iff env m⟩

/-- Nothing outside the database raises. -/
def quietEnvironment : Environment := ⟨none, none⟩

def vpcModule (life : ModuleLife) : ManagedModule :=
  ⟨7, true, some ⟨"vpc", "modules/vpc", "opentofu"⟩, life⟩

/-- `deploy_module` of a destroyed module raises after its apply is queued and dispatched. -/
theorem deploy_destroyed_not_atomic :
    ¬ ∀ (env : Environment) (m : ManagedModule),
      AtomicOnError m (deployModule env m) ∧ AtomicOnError m (retryDeployment env m) := by
  intro h
  have hatomic := (h quietEnvironment (vpcModule ⟨destroyed, [], [], false⟩)).1
  have hnone := (hatomic _ rfl).1
  cases hnone

end BnkForge.Service
