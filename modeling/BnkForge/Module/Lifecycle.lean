import BnkForge.Lib.Transition
import BnkForge.Module.Outcomes

/-!
# The life of one module and its infrastructure

A module as its status, its task rows and the history of engine runs on its workspace,
under `submit_init`, `submit_plan`, `submit_apply`, `submit_destroy`, `cancel_operation` and
`deploy_module` (`backend/services/project_module_service.py:823–1443`), the engine tasks
with every way out, `update_stack_progress`, and the first destroy waves of a project and of
a stack. A worker keeps running when its task row is cancelled. The status that a worker's
session holds when it ends is an input (`seen`): it may be older than the row.
-/

namespace BnkForge.Module

open ModuleStatus Transition

/-! ### State -/

inductive EngineRun
  | apply
  | destroy (ok : Bool)
  deriving DecidableEq, Repr

/-- An apply has been started since the last successful destroy; newest run first. -/
def ownsInfra : List EngineRun → Bool
  | [] => false
  | .apply :: _ => true
  | .destroy true :: _ => false
  | .destroy false :: runs => ownsInfra runs

/-- How far the worker of a task has come. -/
inductive WorkerPhase
  | queued
  | running
  /-- `tofu apply` has been started. -/
  | applyStarted
  /-- `tofu destroy` has returned. -/
  | destroyRan (ok : Bool)
  /-- An init has succeeded and its auto-apply is not queued yet. -/
  | initDone
  | ended
  deriving DecidableEq, Repr

structure TaskRow where
  type : TaskType
  autoApply : Bool
  status : TaskStatus
  phase : WorkerPhase
  deriving DecidableEq, Repr

def queuedTask (type : TaskType) (autoApply : Bool) : TaskRow := ⟨type, autoApply, .queued, .queued⟩

structure ModuleLife where
  status : ModuleStatus
  history : List EngineRun
  tasks : List TaskRow
  rowDeleted : Bool
  deriving DecidableEq, Repr

def ModuleLife.fresh : ModuleLife := ⟨notInitialized, [], [], false⟩

/-- Some task row is pending, queued or in progress. -/
def ModuleLife.hasActiveTask (s : ModuleLife) : Bool := s.tasks.any (·.status.active)

/-- Some destroy task row is pending, queued or in progress. -/
def ModuleLife.hasActiveDestroy (s : ModuleLife) : Bool :=
  s.tasks.any fun t ↦ t.type = .destroy && t.status.active

def ModuleLife.lastTask (s : ModuleLife) : Option TaskStatus := s.tasks.getLast?.map (·.status)

def ModuleLife.stale (s : ModuleLife) : Bool := s.status.transitional && !s.hasActiveTask

/-! ### Operations -/

/-- What can happen next; `i` is the position of a task row. -/
inductive LifeEvent
  | submitInit
  | submitPlan
  | submitApply
  | deployModule
  | submitDestroy
  /-- `dispatchable`: some cancellable task row carries a Celery id. -/
  | cancelOperation (dispatchable : Bool)
  | startTask (i : Nat)
  | startApply (i : Nat)
  | runDestroy (i : Nat) (ok : Bool)
  | exit (i : Nat) (x : Exit) (seen : ModuleStatus)
  | autoApply (i : Nat)
  | updateStackProgress
  /-- `leaf`: no deployed module of the stack depends on this one. -/
  | destroyStack (leaf : Bool)
  /-- `leaf`: no deployed module of the project depends on this one. -/
  | destroyProject (leaf : Bool)
  deriving DecidableEq, Repr

def dispatch (s : ModuleLife) (type : TaskType) (autoApply : Bool) (status : ModuleStatus) :
    ModuleLife :=
  { s with status := status, tasks := s.tasks ++ [queuedTask type autoApply] }

/-- `deploy_module`: the task is queued before the transition is checked, so an illegal
transition raises and leaves the task. -/
def deployModule (s : ModuleLife) : Option ModuleLife :=
  if s.status = applying ∨ s.status = initializing ∨ s.status = planning then none
  else if s.status = notInitialized then some (dispatch s .init true initializing)
  else
    some (dispatch s .apply false
      (if isLegalTransition s.status applying then applying else s.status))

/-- The statuses that `submit_destroy` accepts. -/
def destroyable : List ModuleStatus :=
  [applied, initialized, planned, planFailed, applyFailed, destroyFailed, failed]

/-- `cancel_operation`. -/
def cancelOperation (s : ModuleLife) (dispatchable : Bool) : Option ModuleLife :=
  if dispatchable && s.hasActiveTask then
    some { s with
      status := resetModuleStatus s.status
      tasks := s.tasks.map fun t ↦ if t.status.active then { t with status := .cancelled } else t }
  else if s.status.transitional then some { s with status := resetModuleStatus s.status }
  else none

def startTask (s : ModuleLife) (i : Nat) (t : TaskRow) : ModuleLife :=
  if t.type = .destroy ∧ s.status.neverApplied then
    { s with
      status := destroyed, tasks := s.tasks.set i { t with status := .completed, phase := .ended } }
  else { s with tasks := s.tasks.set i { t with status := .inProgress, phase := .running } }

/-- Whether a worker in this phase can leave its task this way. -/
def exitPossible (t : TaskRow) (x : Exit) : Bool :=
  match t.type, t.phase, x with
  | _, .queued, _ | _, .initDone, _ | _, .ended, _ => false
  | .apply, .running, .success | .apply, .running, .engineFailed => false
  | .destroy, .running, .success => false
  | .destroy, .destroyRan ok, .success => ok
  | .destroy, .destroyRan ok, .engineFailed => !ok
  | type, _, x => (fencedTarget type x).isSome || x = .lockError || x = .lockLost ||
      x = .softTimeLimit || x = .exception

def exitStatus (type : TaskType) (x : Exit) (seen status : ModuleStatus) : ModuleStatus :=
  match fencedTarget type x with
  | some (target, extra) =>
    if isLegalTransition seen target then
      if seen = target ∧ extra = false then status else target
    else failedStatus type
  | none => (handlerTarget type x).getD status

def exitPhase (t : TaskRow) (x : Exit) : WorkerPhase :=
  if t.type = .init ∧ x = .success ∧ t.autoApply then .initDone else .ended

/-- The status after the recovery at the start of `destroy_stack`. -/
def ModuleLife.recovered (s : ModuleLife) : ModuleStatus :=
  if s.stale then recoverForDestroy s.lastTask s.status else s.status

/-- `destroy_stack`, as far as it concerns this module. -/
def destroyStack (s : ModuleLife) (leaf : Bool) : ModuleLife :=
  match stackDestroyDecision s.recovered with
  | .deleteRow => { s with status := s.recovered, rowDeleted := true }
  | .refuse => { s with status := s.recovered }
  | .queueDestroy =>
    if leaf then dispatch s .destroy false destroying else { s with status := s.recovered }

/-- `_dispatch_first_destroy_wave`, as far as it concerns this module. -/
def destroyProject (s : ModuleLife) (leaf : Bool) : ModuleLife :=
  if s.status.noInfra || s.hasActiveDestroy || !leaf then s
  else dispatch s .destroy false destroying

def onRow (s : ModuleLife) (result : Option ModuleLife) : Option ModuleLife :=
  if s.rowDeleted then none else result

/-- An operation of the worker of task row `i`. -/
def onTask (s : ModuleLife) (i : Nat) (op : TaskRow → Option ModuleLife) : Option ModuleLife :=
  s.tasks[i]?.bind op

/-- One event, `none` when it cannot happen or is answered with an error. -/
def lifeStep (s : ModuleLife) : LifeEvent → Option ModuleLife
  | .submitInit => onRow s (some (dispatch s .init false initializing))
  | .submitPlan => onRow s (some (dispatch s .plan false planning))
  | .submitApply => onRow s (some (dispatch s .apply false applying))
  | .deployModule => onRow s (deployModule s)
  | .submitDestroy =>
    onRow s (if s.status ∈ destroyable then some (dispatch s .destroy false destroying) else none)
  | .cancelOperation dispatchable => onRow s (cancelOperation s dispatchable)
  | .startTask i =>
    onRow s (onTask s i fun t ↦ if t.phase = .queued then some (startTask s i t) else none)
  | .startApply i => onTask s i fun t ↦
    if t.type = .apply ∧ (t.phase = .running ∨ t.phase = .applyStarted) then
      some { s with
        history := .apply :: s.history, tasks := s.tasks.set i { t with phase := .applyStarted } }
    else none
  | .runDestroy i ok => onTask s i fun t ↦
    if t.type = .destroy ∧ (t.phase = .running ∨ t.phase = .destroyRan false) then
      some { s with
        history := .destroy ok :: s.history
        tasks := s.tasks.set i { t with phase := .destroyRan ok } }
    else none
  | .exit i x seen => onRow s (onTask s i fun t ↦
    if exitPossible t x then
      some { s with
        status := exitStatus t.type x seen s.status
        tasks := s.tasks.set i { t with status := x.taskStatus, phase := exitPhase t x } }
    else none)
  | .autoApply i => onRow s (onTask s i fun t ↦
    if t.phase = .initDone then
      some (dispatch { s with tasks := s.tasks.set i { t with phase := .ended } }
        .apply false applying)
    else none)
  | .updateStackProgress =>
    onRow s (some { s with
      status := if s.stale then recoverStale s.lastTask s.status else s.status })
  | .destroyStack leaf => onRow s (some (destroyStack s leaf))
  | .destroyProject leaf => onRow s (some (destroyProject s leaf))

end BnkForge.Module
