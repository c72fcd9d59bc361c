import BnkForge.Module.State

/-!
# Status writes of the engine tasks and of the recoveries

How `run_opentofu_init`, `run_opentofu_plan`, `run_opentofu_apply` and
`run_opentofu_destroy` (`backend/tasks/opentofu_tasks.py:75–1278`) leave the module's status
on every way out of them, and the resets of `cancel_operation`, `update_stack_progress` and
`destroy_stack`.
-/

namespace BnkForge.Module

open ModuleStatus

/-! ### Ways out of an engine task -/

/-- How a task body ends. The first four end inside the lock with a fenced write, the
others are the exception handlers. -/
inductive Exit
  | success
  /-- `tofu init` failed on the way to the task's own operation. -/
  | initFailed
  /-- `tofu plan` failed on the way to an apply. -/
  | planFailed
  /-- The task's own operation failed. -/
  | engineFailed
  | lockError
  | lockLost
  | softTimeLimit
  | exception
  deriving DecidableEq, Repr

/-- The status a task writes under its lock and whether it writes other columns with it;
`none` where the task has no such way out. -/
def fencedTarget : TaskType → Exit → Option (ModuleStatus × Bool)
  | .init, .success => some (initialized, false)
  | .init, .engineFailed => some (initFailed, true)
  | .plan, .success => some (planned, false)
  | .plan, .initFailed => some (initFailed, false)
  | .plan, .engineFailed => some (planFailed, true)
  | .apply, .success => some (applied, true)
  | .apply, .initFailed => some (initFailed, false)
  | .apply, .planFailed => some (planFailed, true)
  | .apply, .engineFailed => some (applyFailed, true)
  | .destroy, .success => some (destroyed, true)
  | .destroy, .initFailed => some (destroyFailed, false)
  | .destroy, .engineFailed => some (destroyFailed, true)
  | _, _ => none

/-- The `failed_status` that a task's generic exception handler passes to
`_mark_task_failed`. -/
def failedStatus : TaskType → ModuleStatus
  | .init => initFailed
  | .plan => planFailed
  | .apply => applyFailed
  | .destroy => destroyFailed

def handlerTarget : TaskType → Exit → Option ModuleStatus
  | type, .exception | type, .softTimeLimit => some (failedStatus type)
  | .destroy, .lockError | .destroy, .lockLost => some destroyFailed
  | _, _ => none

def Exit.taskStatus : Exit → TaskStatus
  | .success => .completed
  | _ => .failed

/-! ### Resets -/

/-- `_reset_module_status`; `backend/services/project_module_service.py:1816`. -/
def resetModuleStatus : ModuleStatus → ModuleStatus
  | initializing => notInitialized
  | planning => initialized
  | applying => planned
  | destroying => applied
  | s => s

/-- The `*_failed` status of an in-progress one. -/
def failedOf : ModuleStatus → ModuleStatus
  | applying => applyFailed
  | initializing => initFailed
  | planning => planFailed
  | destroying => destroyFailed
  | s => s

def completedOf : ModuleStatus → ModuleStatus
  | destroying => destroyed
  | _ => applied

/-- The recovery of `update_stack_progress` (BUG-009) for a module in an in-progress status
without an active task, by the status of its last task. -/
def recoverStale (lastTask : Option TaskStatus) (s : ModuleStatus) : ModuleStatus :=
  match lastTask with
  | some .failed => failedOf s
  | some .completed => completedOf s
  | some _ => notInitialized
  | none => s

/-- A recovered module is not left `destroying`, except where it has no task at all. -/
theorem recoverStale_cases (lastTask : Option TaskStatus) (s : ModuleStatus) :
    recoverStale lastTask s = s ∨ recoverStale lastTask s ≠ destroying := by
  rcases lastTask with _ | ⟨_ | _ | _ | _ | _ | _⟩ <;> cases s <;> decide

/-- The recovery of `destroy_stack` (BUG-008). -/
def recoverForDestroy (lastTask : Option TaskStatus) (s : ModuleStatus) : ModuleStatus :=
  match lastTask with
  | some .failed => failedOf s
  | some .completed => completedOf s
  | _ => if s = applying ∨ s = destroying then failedOf s else notInitialized

/-- What `destroy_stack` does with a module after the recovery. -/
inductive StackDestroyDecision
  | deleteRow | refuse | queueDestroy
  deriving DecidableEq, Repr

/-- The triage of `backend/services/stack_deployment_service.py:1660–1690`. -/
def stackDestroyDecision (s : ModuleStatus) : StackDestroyDecision :=
  if s = destroyed then .deleteRow
  else if s.transitional then .refuse
  else if s.noInfra then .deleteRow
  else .queueDestroy

/-- `destroy_stack` deletes exactly the rows whose status says that nothing exists. -/
theorem stackDestroyDecision_eq_deleteRow_iff (s : ModuleStatus) :
    stackDestroyDecision s = .deleteRow ↔ s.noInfra = true := by
  cases s <;> decide

/-- Where `recoverForDestroy` lands in a status that says that nothing exists. -/
theorem noInfra_recoverForDestroy {s : ModuleStatus} (hs : s.transitional = true)
    (lastTask : Option TaskStatus) :
    (recoverForDestroy lastTask s).noInfra = true ↔
      s = initializing ∧ lastTask ≠ some .completed ∨
        s = planning ∧ lastTask ≠ some .completed ∨
        s = destroying ∧ lastTask = some .completed := by
  cases s <;> simp [transitional] at hs <;> rcases lastTask with _ | ⟨_ | _ | _ | _ | _ | _⟩ <;>
    decide

/-- Where `recoverStale` lands in a status that says that nothing exists. -/
theorem noInfra_recoverStale {s : ModuleStatus} (hs : s.transitional = true)
    (lastTask : Option TaskStatus) :
    (recoverStale lastTask s).noInfra = true ↔
      lastTask = some .failed ∧ (s = initializing ∨ s = planning) ∨
        lastTask = some .completed ∧ s = destroying ∨
        lastTask ≠ none ∧ lastTask ≠ some .failed ∧ lastTask ≠ some .completed := by
  cases s <;> simp [transitional] at hs <;> rcases lastTask with _ | ⟨_ | _ | _ | _ | _ | _⟩ <;>
    decide

/-- Cancelling lands in a status that says that nothing exists from the in-progress statuses
other than `destroying`. -/
theorem noInfra_resetModuleStatus (s : ModuleStatus) :
    (resetModuleStatus s).noInfra = true ↔
      s.noInfra = true ∨ s = initializing ∨ s = planning ∨ s = applying := by
  cases s <;> decide

end BnkForge.Module
