import BnkForge.Service.ProjectModule

/-!
# The writers of the status column

The operations that write `project_modules.status`, each as one step on its module:
the project module service, `_dispatch_first_wave` and `_dispatch_first_destroy_wave`
(`backend/services/parallel_execution_service.py:367–701`), `_trigger_next_stack_module`,
`_trigger_next_destroy_module` and its terminal detection
(`backend/tasks/_tofu_helpers.py:172–806`), `reset_stale_tasks`
(`backend/services/execution_janitor.py:85–178`), `run_deploy`, and the recoveries of
`update_stack_progress` and `destroy_stack`. What an operation reads of other modules is an
input of it.
-/

namespace BnkForge.Service

open ModuleStatus BnkForge.Module Transition

/-! ### Dispatchers -/

def queueTask (m : ManagedModule) (type : TaskType) (autoApply : Bool) (status : ModuleStatus) :
    ManagedModule :=
  { m with life := dispatch m.life type autoApply status }

def queueDeploy (m : ManagedModule) : ManagedModule :=
  if m.life.status = notInitialized then queueTask m .init true initializing
  else queueTask m .apply false applying

def deployType (m : ManagedModule) : TaskType :=
  if m.life.status = notInitialized then .init else .apply

/-- The test of `_dispatch_first_wave`. -/
def inFirstWave (varsChanged depsReady : Bool) (m : ManagedModule) : Bool :=
  m.enabled && (m.life.status != applied || varsChanged) && !m.life.hasActiveTask && depsReady

/-- `_dispatch_first_wave`: the status is set after the task is handed over, and a raise
ends the wave before its commit. -/
def dispatchFirstWave (env : Environment) (varsChanged depsReady : Bool) (m : ManagedModule) :
    ManagedModule :=
  if inFirstWave varsChanged depsReady m ∧ dispatchTask env m (deployType m) = .ok () then
    queueDeploy m
  else m

/-- `_dispatch_first_destroy_wave`; `leaf` says that no deployed module depends on this one. -/
def dispatchFirstDestroyWave (forceDestroy inCluster leaf : Bool) (m : ManagedModule) :
    ManagedModule :=
  if m.life.status.noInfra then m
  else if forceDestroy && inCluster then setStatus m destroyed
  else if leaf && !m.life.hasActiveDestroy then queueTask m .destroy false destroying
  else m

/-- The test of `_trigger_next_stack_module`; `ready` says that the module depends on the
completed one and that all its dependencies are applied. -/
def inStackTrigger (ready : Bool) (m : ManagedModule) : Bool :=
  m.enabled && !([applied, applying, applyFailed, planFailed].contains m.life.status) && ready &&
    !m.life.hasActiveTask

/-- `_trigger_next_stack_module`: task row and status are committed before the dispatch. -/
def triggerNextStackModule (ready : Bool) (m : ManagedModule) : ManagedModule :=
  if inStackTrigger ready m then queueDeploy m else m

/-- The test of `_trigger_next_destroy_module`; `cleared` says that no dependent blocks. -/
def inDestroyTrigger (cleared : Bool) (m : ManagedModule) : Bool :=
  !m.life.status.noInfra && cleared && !m.life.hasActiveDestroy

/-- `_trigger_next_destroy_module`. -/
def triggerNextDestroyModule (cleared : Bool) (m : ManagedModule) : ManagedModule :=
  if inDestroyTrigger cleared m then queueTask m .destroy false destroying else m

/-- The reconcile of the project's terminal detection. -/
def reconcile (m : ManagedModule) : ManagedModule :=
  if m.life.status = destroyFailed then setStatus m destroyed else m

/-- The test of `run_deploy`; a module without a branch for its status is passed over. -/
def inRunDeploy (varsChanged depsSatisfied : Bool) (m : ManagedModule) : Bool :=
  m.enabled && !m.life.hasActiveTask && depsSatisfied &&
    ([notInitialized, initialized, planned, initFailed, planFailed, applyFailed].contains
      m.life.status || m.life.status == applied && varsChanged)

/-- `run_deploy`: the task row is committed before the dispatch and the status after it. -/
def runDeploy (env : Environment) (varsChanged depsSatisfied : Bool) (m : ManagedModule) :
    ManagedModule :=
  if inRunDeploy varsChanged depsSatisfied m then
    match dispatchTask env m (deployType m) with
    | .ok () => queueDeploy m
    | .error _ => createTask m (deployType m) (m.life.status = notInitialized)
  else m

/-! ### Recoveries -/

/-- `_TRANSIENT_TO_FAILED`. -/
def transientToFailed : ModuleStatus → ModuleStatus
  | initializing => initFailed
  | planning => planFailed
  | applying => applyFailed
  | s => s

/-- Task row `i` is active and its worker is not live. -/
def staleTask (live : List Nat) (i : Nat) (t : TaskRow) : Bool :=
  t.status.active && !live.contains i

def hasStale (live : List Nat) (kind : TaskType → Bool) (tasks : List TaskRow) : Bool :=
  tasks.zipIdx.any fun p ↦ staleTask live p.2 p.1 && kind p.1.type

/-- The status after `reset_stale_tasks`: modules of stale deploy tasks first, then those of
stale destroy tasks. -/
def janitorStatus (staleDeploy staleDestroy : Bool) (s : ModuleStatus) : ModuleStatus :=
  let reset := if staleDeploy then transientToFailed s else s
  if staleDestroy ∧ reset = destroying then destroyFailed else reset

/-- `reset_stale_tasks`; `live` are the positions of the tasks whose worker is live. -/
def resetStaleTasks (live : List Nat) (m : ManagedModule) : ManagedModule :=
  { m with life := { m.life with
    status := janitorStatus (hasStale live (· != .destroy) m.life.tasks)
      (hasStale live (· == .destroy) m.life.tasks) m.life.status
    tasks := m.life.tasks.mapIdx fun i t ↦
      if staleTask live i t then { t with status := .failed } else t } }

/-- The recovery of `update_stack_progress`. -/
def recoverProgress (m : ManagedModule) : ManagedModule :=
  if m.life.stale then setStatus m (recoverStale m.life.lastTask m.life.status) else m

/-- The recovery of `destroy_stack`. -/
def recoverStack (m : ManagedModule) : ManagedModule :=
  if m.life.stale then setStatus m (recoverForDestroy m.life.lastTask m.life.status) else m

/-- The first destroy wave of a stack, after the triage of `destroy_stack`. -/
def destroyStackWave (leaf : Bool) (m : ManagedModule) : ManagedModule :=
  if stackDestroyDecision m.life.status = .queueDestroy ∧ leaf ∧ ¬ m.life.hasActiveDestroy then
    queueTask m .destroy false destroying
  else m

/-! ### Operations -/

inductive Operation
  | submitInit
  | submitPlan
  | submitApply (unmet : List String)
  | submitDestroy
  | deployModule
  | retryDeployment
  | cancelOperation (dispatchable : Bool)
  | dispatchFirstWave (varsChanged depsReady : Bool)
  | dispatchFirstDestroyWave (forceDestroy inCluster leaf : Bool)
  | triggerNextStackModule (ready : Bool)
  | triggerNextDestroyModule (cleared : Bool)
  | reconcile
  | runDeploy (varsChanged depsSatisfied : Bool)
  | resetStaleTasks (live : List Nat)
  | updateStackProgress
  | recoverStack
  | destroyStackWave (leaf : Bool)
  deriving DecidableEq, Repr

def operate (env : Environment) (m : ManagedModule) : Operation → ManagedModule
  | .submitInit => (submitInit env m).module
  | .submitPlan => (submitPlan env m).module
  | .submitApply unmet => (submitApply env unmet m).module
  | .submitDestroy => (submitDestroy env m).module
  | .deployModule => (deployModule env m).module
  | .retryDeployment => (retryDeployment env m).module
  | .cancelOperation dispatchable =>
    { m with life := (cancelOperation m.life dispatchable).getD m.life }
  | .dispatchFirstWave varsChanged depsReady => dispatchFirstWave env varsChanged depsReady m
  | .dispatchFirstDestroyWave forceDestroy inCluster leaf =>
    dispatchFirstDestroyWave forceDestroy inCluster leaf m
  | .triggerNextStackModule ready => triggerNextStackModule ready m
  | .triggerNextDestroyModule cleared => triggerNextDestroyModule cleared m
  | .reconcile => reconcile m
  | .runDeploy varsChanged depsSatisfied => runDeploy env varsChanged depsSatisfied m
  | .resetStaleTasks live => resetStaleTasks live m
  | .updateStackProgress => recoverProgress m
  | .recoverStack => recoverStack m
  | .destroyStackWave leaf => destroyStackWave leaf m

/-- What can happen next. -/
inductive WriterEvent
  | operation (env : Environment) (o : Operation)
  /-- A step of the worker of a task. -/
  | worker (e : LifeEvent)
  /-- A status write of any other route. -/
  | outside (status : ModuleStatus)
  /-- The module or its catalog entry is edited. -/
  | edit (enabled : Bool) (library : Option LibraryModule)
  deriving DecidableEq, Repr

def isWorkerEvent : LifeEvent → Bool
  | .startTask _ | .startApply _ | .runDestroy _ _ | .exit _ _ _ | .autoApply _ => true
  | _ => false

/-- One event, `none` when it cannot happen. -/
def writerStep (m : ManagedModule) : WriterEvent → Option ManagedModule
  | .operation env o => if m.life.rowDeleted then none else some (operate env m o)
  | .worker e =>
    if isWorkerEvent e then (lifeStep m.life e).map fun life ↦ { m with life := life } else none
  | .outside status => some (setStatus m status)
  | .edit enabled library => some { m with enabled := enabled, library := library }

/-! ### Legal writes -/

def LegalWrite (m : ManagedModule) (e : WriterEvent) (m' : ManagedModule) : Prop :=
  match e with
  | .operation _ _ => isLegalTransition m.life.status m'.life.status = true
  | _ => True

def runnable (m : ManagedModule) : Bool :=
  m.enabled && m.library.any fun lib ↦ lib.gitSource != ""

/-- The statuses from which setting `initializing` is illegal. -/
def beyondInit : List ModuleStatus :=
  [planning, planned, applying, applied, destroying, destroyFailed]

/-- The statuses from which setting `planning` is illegal. -/
def beyondPlan : List ModuleStatus :=
  [notInitialized, initializing, applying, destroying, destroyed, destroyFailed, failed]

/-- The statuses from which setting `applying` is illegal. -/
def beyondApply : List ModuleStatus :=
  [notInitialized, initializing, planning, destroying, destroyed, destroyFailed, failed]

/-- The statuses with infrastructure from which a destroy is illegal. -/
def beyondDestroy : List ModuleStatus := [initializing, planning, applying, failed]

/-- The operation does not get to its write from a status that it should refuse. -/
def Respects (env : Environment) (m : ManagedModule) : Operation → Prop
  | .submitInit => runnable m → m.life.status ∉ beyondInit
  | .submitPlan => runnable m → m.life.status ∉ beyondPlan
  | .submitApply unmet => runnable m ∧ unmet = [] → m.life.status ∉ beyondApply
  | .submitDestroy => m.life.status ≠ planFailed ∧ m.life.status ≠ failed
  | .dispatchFirstWave varsChanged depsReady =>
    inFirstWave varsChanged depsReady m ∧ dispatchTask env m (deployType m) = .ok () →
      m.life.status = notInitialized ∨ m.life.status ∉ beyondApply
  | .dispatchFirstDestroyWave forceDestroy inCluster leaf =>
    forceDestroy && inCluster || leaf && !m.life.hasActiveDestroy →
      m.life.status ∉ beyondDestroy
  | .triggerNextStackModule ready =>
    inStackTrigger ready m → m.life.status = notInitialized ∨ m.life.status ∉ beyondApply
  | .triggerNextDestroyModule cleared =>
    inDestroyTrigger cleared m → m.life.status ∉ beyondDestroy
  | .updateStackProgress =>
    m.life.stale →
      (m.life.lastTask = some .completed →
        m.life.status ≠ initializing ∧ m.life.status ≠ planning) ∧
      (m.life.lastTask ≠ some .completed ∧ m.life.lastTask ≠ some .failed ∧
        m.life.lastTask ≠ none → m.life.status = initializing)
  | .recoverStack =>
    m.life.stale →
      (m.life.lastTask = some .completed →
        m.life.status ≠ initializing ∧ m.life.status ≠ planning) ∧
      (m.life.lastTask ≠ some .completed ∧ m.life.lastTask ≠ some .failed →
        m.life.status ≠ planning)
  | .destroyStackWave leaf => leaf ∧ ¬ m.life.hasActiveDestroy → m.life.status ≠ failed
  | .deployModule | .retryDeployment | .cancelOperation _ | .reconcile | .runDeploy _ _
  | .resetStaleTasks _ => True

instance (env : Environment) (m : ManagedModule) (o : Operation) : Decidable (Respects env m o) :=
  match o with
  | .submitInit | .submitPlan | .submitApply _ | .dispatchFirstWave _ _
  | .dispatchFirstDestroyWave _ _ _ | .triggerNextStackModule _ | .triggerNextDestroyModule _
  | .updateStackProgress | .recoverStack | .destroyStackWave _ => inferInstanceAs (Decidable (_ → _))
  | .submitDestroy => inferInstanceAs (Decidable (_ ∧ _))
  | .deployModule | .retryDeployment | .cancelOperation _ | .reconcile | .runDeploy _ _
  | .resetStaleTasks _ => .isTrue trivial

def RespectsStatus (m : ManagedModule) : WriterEvent → Prop
  | .operation env o => Respects env m o
  | _ => True

instance (m : ManagedModule) (e : WriterEvent) : Decidable (RespectsStatus m e) :=
  match e with
  | .operation env o => inferInstanceAs (Decidable (Respects env m o))
  | .worker _ | .outside _ | .edit _ _ => .isTrue trivial

/-! ### The transition graph at the writers' targets -/

theorem legal_initializing_iff (s : ModuleStatus) :
    isLegalTransition s initializing = true ↔ s ∉ beyondInit := by
  cases s <;> decide

theorem legal_planning_iff (s : ModuleStatus) :
    isLegalTransition s planning = true ↔ s ∉ beyondPlan := by
  cases s <;> decide

theorem legal_applying_iff (s : ModuleStatus) :
    isLegalTransition s applying = true ↔ s ∉ beyondApply := by
  cases s <;> decide

theorem legal_destroying_iff {s : ModuleStatus} (hs : s.noInfra = false) :
    isLegalTransition s destroying = true ↔ s ∉ beyondDestroy := by
  revert hs
  cases s <;> decide

theorem legal_destroyed_iff {s : ModuleStatus} (hs : s.noInfra = false) :
    isLegalTransition s destroyed = true ↔ s ∉ beyondDestroy := by
  revert hs
  cases s <;> decide

theorem legal_janitorStatus (staleDeploy staleDestroy : Bool) (s : ModuleStatus) :
    isLegalTransition s (janitorStatus staleDeploy staleDestroy s) = true := by
  cases staleDeploy <;> cases staleDestroy <;> cases s <;> decide

theorem legal_recoverStale_iff {s : ModuleStatus} (hs : s.transitional = true)
    (last : Option TaskStatus) :
    isLegalTransition s (recoverStale last s) = true ↔
      (last = some .completed → s ≠ initializing ∧ s ≠ planning) ∧
        (last ≠ some .completed ∧ last ≠ some .failed ∧ last ≠ none → s = initializing) := by
  revert hs
  rcases last with _ | ⟨_ | _ | _ | _ | _ | _⟩ <;> cases s <;> decide

theorem legal_recoverForDestroy_iff {s : ModuleStatus} (hs : s.transitional = true)
    (last : Option TaskStatus) :
    isLegalTransition s (recoverForDestroy last s) = true ↔
      (last = some .completed → s ≠ initializing ∧ s ≠ planning) ∧
        (last ≠ some .completed ∧ last ≠ some .failed → s ≠ planning) := by
  revert hs
  rcases last with _ | ⟨_ | _ | _ | _ | _ | _⟩ <;> cases s <;> decide

theorem legal_self (s : ModuleStatus) : isLegalTransition s s = true := by
  cases s <;> decide

/-! ### What each operation writes -/

theorem status_setStatus (m : ManagedModule) (status : ModuleStatus) :
    (setStatus m status).life.status = status :=
  rfl

theorem status_queueTask (m : ManagedModule) (type : TaskType) (autoApply : Bool)
    (status : ModuleStatus) : (queueTask m type autoApply status).life.status = status :=
  rfl

/-- Queueing a deploy is legal from `not_initialized` and where an apply is. -/
theorem legal_queueDeploy_iff (m : ManagedModule) :
    isLegalTransition m.life.status (queueDeploy m).life.status = true ↔
      m.life.status = notInitialized ∨ m.life.status ∉ beyondApply := by
  unfold queueDeploy
  split
  · next h =>
    rw [status_queueTask, h]
    decide
  · next h => rw [status_queueTask, legal_applying_iff, or_iff_right h]

theorem status_submitTask (env : Environment) (m : ManagedModule) (type : TaskType)
    (status : ModuleStatus) : (submitTask env m type status).module.life.status = status := by
  unfold submitTask
  cases dispatchTask env m type <;> rfl

theorem validateForOperation_eq_nil_iff (m : ManagedModule) :
    validateForOperation m = [] ↔ runnable m = true := by
  unfold validateForOperation runnable
  cases m.enabled <;> cases m.library <;> simp

/-- `deploy_module` and `retry_deployment` write only what the state machine allows. -/
theorem legal_dispatchThenTransition (env : Environment) (m : ManagedModule) (type : TaskType)
    (autoApply : Bool) (status : ModuleStatus) :
    isLegalTransition m.life.status
      (dispatchThenTransition env m type autoApply status).module.life.status = true := by
  unfold dispatchThenTransition
  cases dispatchTask env m type with
  | error e => exact legal_self _
  | ok u =>
    cases hlegal : isLegalTransition m.life.status status with
    | false => simp [transition, createTask, hlegal, legal_self]
    | true => simp [transition, createTask, setStatus, hlegal]

private theorem legal_submitInit_iff (env : Environment) (m : ManagedModule) :
    isLegalTransition m.life.status (submitInit env m).module.life.status = true ↔
      Respects env m .submitInit := by
  rw [Respects, runnable, submitInit]
  cases m.library with
  | none => exact iff_of_true (legal_self _) (by simp)
  | some lib =>
    by_cases hgit : lib.gitSource = ""
    · simp [hgit, Call.reject, legal_self]
    · cases m.enabled with
      | false => simp [hgit, Call.reject, legal_self]
      | true => simp [hgit, status_submitTask, legal_initializing_iff]

private theorem legal_submitPlan_iff (env : Environment) (m : ManagedModule) :
    isLegalTransition m.life.status (submitPlan env m).module.life.status = true ↔
      Respects env m .submitPlan := by
  rw [Respects, ← validateForOperation_eq_nil_iff, submitPlan]
  by_cases hvalid : validateForOperation m = []
  · simp [hvalid, status_submitTask, legal_planning_iff]
  · simp [hvalid, Call.reject, legal_self]

private theorem legal_submitApply_iff (env : Environment) (m : ManagedModule)
    (unmet : List String) :
    isLegalTransition m.life.status (submitApply env unmet m).module.life.status = true ↔
      Respects env m (.submitApply unmet) := by
  rw [Respects, ← validateForOperation_eq_nil_iff, submitApply]
  by_cases hvalid : validateForOperation m = []
  · by_cases hunmet : unmet = []
    · simp [hvalid, hunmet, status_submitTask, legal_applying_iff]
    · simp [hvalid, hunmet, Call.reject, legal_self]
  · simp [hvalid, Call.reject, legal_self]

private theorem legal_submitDestroy_iff (env : Environment) (m : ManagedModule) :
    isLegalTransition m.life.status (submitDestroy env m).module.life.status = true ↔
      Respects env m .submitDestroy := by
  rw [Respects, submitDestroy]
  by_cases hd : m.life.status ∈ destroyable
  · rw [if_pos hd, status_submitTask]
    revert hd
    cases m.life.status <;> decide
  · rw [if_neg hd]
    refine iff_of_true (legal_self _) ?_
    revert hd
    cases m.life.status <;> decide

private theorem legal_deployModule (env : Environment) (m : ManagedModule) :
    isLegalTransition m.life.status (deployModule env m).module.life.status = true := by
  unfold deployModule
  split
  · exact legal_self _
  · split
    · exact legal_self _
    · split
      · exact legal_dispatchThenTransition env m _ _ _
      · exact legal_dispatchThenTransition env m _ _ _

private theorem legal_retryDeployment (env : Environment) (m : ManagedModule) :
    isLegalTransition m.life.status (retryDeployment env m).module.life.status = true := by
  unfold retryDeployment
  split
  · exact legal_self _
  · split
    · exact legal_self _
    · dsimp only
      split
      · exact legal_self _
      · split
        · exact legal_self _
        · exact legal_dispatchThenTransition env m _ _ _

private theorem legal_cancelOperation (m : ManagedModule) (dispatchable : Bool) :
    isLegalTransition m.life.status
      ((cancelOperation m.life dispatchable).getD m.life).status = true := by
  have hreset : isLegalTransition m.life.status (resetModuleStatus m.life.status) = true := by
    cases m.life.status <;> decide
  unfold cancelOperation
  split
  · exact hreset
  · split
    · exact hreset
    · exact legal_self _

private theorem legal_dispatchFirstWave_iff (env : Environment) (m : ManagedModule)
    (varsChanged depsReady : Bool) :
    isLegalTransition m.life.status
        (dispatchFirstWave env varsChanged depsReady m).life.status = true ↔
      Respects env m (.dispatchFirstWave varsChanged depsReady) := by
  rw [Respects, dispatchFirstWave]
  split
  · next h => rw [legal_queueDeploy_iff, forall_prop_of_true h]
  · next h => exact iff_of_true (legal_self _) fun h' ↦ absurd h' h

private theorem legal_dispatchFirstDestroyWave_iff (env : Environment) (m : ManagedModule)
    (forceDestroy inCluster leaf : Bool) :
    isLegalTransition m.life.status
        (dispatchFirstDestroyWave forceDestroy inCluster leaf m).life.status = true ↔
      Respects env m (.dispatchFirstDestroyWave forceDestroy inCluster leaf) := by
  rw [Respects, dispatchFirstDestroyWave]
  cases hno : m.life.status.noInfra with
  | true =>
    have hout : m.life.status ∉ beyondDestroy := by
      revert hno
      cases m.life.status <;> decide
    exact iff_of_true (legal_self _) fun _ ↦ hout
  | false =>
    cases hforce : forceDestroy && inCluster with
    | true => simp [setStatus, legal_destroyed_iff hno]
    | false =>
      cases hleaf : leaf && !m.life.hasActiveDestroy with
      | true => simp [status_queueTask, legal_destroying_iff hno]
      | false => simp [legal_self]

private theorem legal_triggerNextStackModule_iff (env : Environment) (m : ManagedModule)
    (ready : Bool) :
    isLegalTransition m.life.status (triggerNextStackModule ready m).life.status = true ↔
      Respects env m (.triggerNextStackModule ready) := by
  rw [Respects, triggerNextStackModule]
  split
  · next h => rw [legal_queueDeploy_iff, forall_prop_of_true h]
  · next h => exact iff_of_true (legal_self _) fun h' ↦ absurd h' h

private theorem legal_triggerNextDestroyModule_iff (env : Environment) (m : ManagedModule)
    (cleared : Bool) :
    isLegalTransition m.life.status (triggerNextDestroyModule cleared m).life.status = true ↔
      Respects env m (.triggerNextDestroyModule cleared) := by
  rw [Respects, triggerNextDestroyModule]
  split
  · next h =>
    have hno : m.life.status.noInfra = false := by
      rw [inDestroyTrigger] at h
      revert h
      cases m.life.status.noInfra <;> simp
    rw [status_queueTask, legal_destroying_iff hno, forall_prop_of_true h]
  · next h => exact iff_of_true (legal_self _) fun h' ↦ absurd h' h

private theorem legal_reconcile (m : ManagedModule) :
    isLegalTransition m.life.status (reconcile m).life.status = true := by
  unfold reconcile
  split
  · next h =>
    rw [status_setStatus, h]
    decide
  · exact legal_self _

private theorem legal_runDeploy (env : Environment) (m : ManagedModule)
    (varsChanged depsSatisfied : Bool) :
    isLegalTransition m.life.status (runDeploy env varsChanged depsSatisfied m).life.status =
      true := by
  unfold runDeploy
  split
  · next h =>
    split
    · -- every status with a branch may be deployed
      rw [legal_queueDeploy_iff]
      simp only [inRunDeploy, Bool.and_eq_true, Bool.or_eq_true] at h
      have hbranch := h.2
      revert hbranch
      cases m.life.status <;> simp [beyondApply]
    · exact legal_self _
  · exact legal_self _

private theorem legal_recoverProgress_iff (env : Environment) (m : ManagedModule) :
    isLegalTransition m.life.status (recoverProgress m).life.status = true ↔
      Respects env m .updateStackProgress := by
  rw [Respects, recoverProgress]
  split
  · next h =>
    have htrans : m.life.status.transitional = true := (Bool.and_eq_true_iff.mp h).1
    rw [forall_prop_of_true h, status_setStatus, legal_recoverStale_iff htrans]
  · next h => exact iff_of_true (legal_self _) fun h' ↦ absurd h' h

private theorem legal_recoverStack_iff (env : Environment) (m : ManagedModule) :
    isLegalTransition m.life.status (recoverStack m).life.status = true ↔
      Respects env m .recoverStack := by
  rw [Respects, recoverStack]
  split
  · next h =>
    have htrans : m.life.status.transitional = true := (Bool.and_eq_true_iff.mp h).1
    rw [forall_prop_of_true h, status_setStatus, legal_recoverForDestroy_iff htrans]
  · next h => exact iff_of_true (legal_self _) fun h' ↦ absurd h' h

private theorem legal_destroyStackWave_iff (env : Environment) (m : ManagedModule) (leaf : Bool) :
    isLegalTransition m.life.status (destroyStackWave leaf m).life.status = true ↔
      Respects env m (.destroyStackWave leaf) := by
  rw [Respects, destroyStackWave]
  split
  · next h =>
    obtain ⟨hdecision, hleaf⟩ := h
    rw [status_queueTask, forall_prop_of_true hleaf]
    revert hdecision
    cases m.life.status <;> decide
  · next h =>
    refine iff_of_true (legal_self _) fun hleaf hfailed ↦ h ⟨?_, hleaf⟩
    rw [hfailed]
    rfl

theorem legal_operate_iff (env : Environment) (m : ManagedModule) (o : Operation) :
    isLegalTransition m.life.status (operate env m o).life.status = true ↔ Respects env m o := by
  cases o with
  | submitInit => exact legal_submitInit_iff env m
  | submitPlan => exact legal_submitPlan_iff env m
  | submitApply unmet => exact legal_submitApply_iff env m unmet
  | submitDestroy => exact legal_submitDestroy_iff env m
  | deployModule => exact iff_of_true (legal_deployModule env m) trivial
  | retryDeployment => exact iff_of_true (legal_retryDeployment env m) trivial
  | cancelOperation dispatchable => exact iff_of_true (legal_cancelOperation m dispatchable) trivial
  | dispatchFirstWave varsChanged depsReady =>
    exact legal_dispatchFirstWave_iff env m varsChanged depsReady
  | dispatchFirstDestroyWave forceDestroy inCluster leaf =>
    exact legal_dispatchFirstDestroyWave_iff env m forceDestroy inCluster leaf
  | triggerNextStackModule ready => exact legal_triggerNextStackModule_iff env m ready
  | triggerNextDestroyModule cleared => exact legal_triggerNextDestroyModule_iff env m cleared
  | reconcile => exact iff_of_true (legal_reconcile m) trivial
  | runDeploy varsChanged depsSatisfied =>
    exact iff_of_true (legal_runDeploy env m varsChanged depsSatisfied) trivial
  | resetStaleTasks live => exact iff_of_true (legal_janitorStatus _ _ _) trivial
  | updateStackProgress => exact legal_recoverProgress_iff env m
  | recoverStack => exact legal_recoverStack_iff env m
  | destroyStackWave leaf => exact legal_destroyStackWave_iff env m leaf

/-! ### Runs -/

/-- The operations of a run write only legal transitions exactly when each respects the status
it starts from. -/
theorem operations_write_legal_iff (m t : ManagedModule) (es : List WriterEvent)
    (hrun : Run writerStep Free m es t) :
    AllSteps writerStep LegalWrite m es ↔ Run writerStep RespectsStatus m es t := by
  refine hrun.allSteps_iff (I := fun _ ↦ True) trivial (fun _ _ _ _ _ ↦ trivial) ?_
  intro a e b _ hab
  cases e with
  | operation env o =>
    simp only [writerStep] at hab
    split at hab
    · cases hab
    · cases hab
      exact legal_operate_iff env a o
  | worker e => exact Iff.rfl
  | outside status => exact Iff.rfl
  | edit enabled library => exact Iff.rfl

/-- A module deployed to `applied`. -/
def deployedModule : List WriterEvent :=
  [.operation quietEnvironment .deployModule, .worker (.startTask 0),
    .worker (.exit 0 .success initializing), .worker (.autoApply 0), .worker (.startTask 1),
    .worker (.startApply 1), .worker (.exit 1 .success applying)]

/-- The deploy and the destroy of a module are legal all along. -/
theorem operations_write_legal_deployThenDestroy :
    ∃ t, exec writerStep (vpcModule ModuleLife.fresh)
        (deployedModule ++ [.operation quietEnvironment .submitDestroy]) = some t ∧
      t.life.status = destroying ∧
      AllSteps writerStep LegalWrite (vpcModule ModuleLife.fresh)
        (deployedModule ++ [.operation quietEnvironment .submitDestroy]) := by
  refine ⟨_, rfl, rfl, ?_⟩
  exact (operations_write_legal_iff _ _ _ (Run.free_iff_exec.mpr rfl)).mpr (Run.iff_exec.mpr rfl)

/-- `submit_init` of an applied module writes `initializing`, which the state machine does not
allow from `applied`. -/
theorem submit_init_writes_illegal :
    ¬ ∀ es, AllSteps writerStep LegalWrite (vpcModule ModuleLife.fresh) es := by
  intro h
  have hrun : exec writerStep (vpcModule ModuleLife.fresh) deployedModule = some _ := rfl
  have hlegal := (Run.free_iff_exec.mpr hrun).allSteps_last
    (h (deployedModule ++ [.operation quietEnvironment .submitInit])) rfl
  cases hlegal

end BnkForge.Service
