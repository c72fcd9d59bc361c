import Mathlib.Data.List.Basic

/-!
# Status values of modules, tasks and stacks

`backend/models/enums.py:25–140` and the status vocabularies of the destroy
orchestration, `backend/tasks/parallel_tasks.py:38–99`.
-/

namespace BnkForge

/-- `ModuleStatus`, the lifecycle of a `ProjectModule`; `backend/models/enums.py:25`. -/
inductive ModuleStatus
  | notInitialized
  | initialized
  | initializing
  | initFailed
  | planning
  | planned
  | planFailed
  | applying
  | applied
  | applyFailed
  | destroying
  | destroyed
  | destroyFailed
  | failed
  deriving DecidableEq, Repr

/-- `TaskStatus`, the lifecycle of a Celery job; `backend/models/enums.py:61`. -/
inductive TaskStatus
  | queued
  | pending
  | inProgress
  | completed
  | failed
  | cancelled
  deriving DecidableEq, Repr

/-- `StackInstanceStatus`, the lifecycle of a stack; `backend/models/enums.py:123`. -/
inductive StackInstanceStatus
  | pending
  | deploying
  | deployed
  | destroying
  | destroyed
  | failed
  deriving DecidableEq, Repr

/-- The four engine operations a module task can run (`Task.task_type`). -/
inductive TaskType
  | init
  | plan
  | apply
  | destroy
  deriving DecidableEq, Repr

namespace ModuleStatus

/-- `NO_INFRA_STATUSES`: no infrastructure exists; `backend/tasks/parallel_tasks.py:38`. -/
def noInfra : ModuleStatus → Bool
  | destroyed | notInitialized | initialized | planned | initFailed | planFailed => true
  | _ => false

/-- `TERMINAL_DESTROY_STATUSES`; `backend/tasks/parallel_tasks.py:48`. -/
def terminalDestroy : ModuleStatus → Bool
  | destroyFailed => true
  | s => s.noInfra

/-- The in-progress statuses, `transitional_statuses` of
`backend/services/stack_deployment_service.py:1409`. -/
def transitional : ModuleStatus → Bool
  | initializing | planning | applying | destroying => true
  | _ => false

/-- The test `"failed" in str(m.status).lower()` of `update_stack_progress`. -/
def failedInName : ModuleStatus → Bool
  | initFailed | planFailed | applyFailed | destroyFailed | failed => true
  | _ => false

/-- The statuses for which `run_opentofu_destroy` has nothing to destroy (CP-008);
`backend/tasks/opentofu_tasks.py:1010`. -/
def neverApplied : ModuleStatus → Bool
  | notInitialized | initialized | planned | initFailed | planFailed => true
  | _ => false

theorem noInfra_eq (s : ModuleStatus) :
    s.noInfra = (s == destroyed || s.neverApplied) := by
  cases s <;> rfl

/-- Destroy runs end in no infrastructure or in `destroy_failed`. -/
theorem terminalDestroy_iff (s : ModuleStatus) :
    s.terminalDestroy = true ↔ s.noInfra = true ∨ s = destroyFailed := by
  cases s <;> simp [terminalDestroy, noInfra]

theorem transitional_of_terminalDestroy {s : ModuleStatus} (h : s.terminalDestroy = true) :
    s.transitional = false := by
  cases s <;> simp_all [terminalDestroy, noInfra, transitional]

end ModuleStatus

namespace TaskStatus

/-- `NON_TERMINAL_TASK_STATUSES`, the statuses of a live task row. -/
def active : TaskStatus → Bool
  | pending | queued | inProgress => true
  | _ => false

end TaskStatus
end BnkForge
