import BnkForge.Module.Worker
import Mathlib.Data.List.Nodup

/-!
# The reverse-DAG destroy chain

A destroy run of a project or of a stack: the first wave
(`backend/services/parallel_execution_service.py:367–581`,
`backend/services/stack_deployment_service.py:1742–1840`), the engine tasks it queues, and
the end-of-run hooks of each of them: `update_stack_progress`,
`_trigger_next_destroy_module` and terminal detection
(`backend/tasks/_tofu_helpers.py:364–790`). Workers interleave at every commit. A trigger
tests a dependency and commits its dispatch later; terminal detection of a project reads and
writes off later, that of a stack holds the stack row from its read to its commit.
Lock statements of other tasks on the same rows are events of their own.
-/

namespace BnkForge.Destroy

open ModuleStatus Lock BnkForge.Module

/-! ### Modules -/

/-- The engine names that `is_in_cluster_module` tells apart. -/
inductive Engine
  | opentofu
  | kubernetesDirect
  | operator
  | kubernetes
  | other
  deriving DecidableEq, Repr

/-- `IN_CLUSTER_ENGINES`; `backend/tasks/parallel_tasks.py:67`. -/
def Engine.inCluster : Engine → Bool
  | kubernetesDirect | operator | kubernetes => true
  | _ => false

structure LibraryModule where
  executionEngine : Option Engine
  engineType : Option Engine
  deriving DecidableEq, Repr

/-- The columns of a project module that no step of a destroy run changes. -/
structure DestroyModule where
  id : Nat
  dependencies : List Nat
  libraryModule : Option LibraryModule
  deriving DecidableEq, Repr

/-- `is_in_cluster_module`; `backend/tasks/parallel_tasks.py:74`. -/
def isInClusterModule (m : DestroyModule) : Bool :=
  match m.libraryModule with
  | none => false
  | some lib => lib.executionEngine.any Engine.inCluster || lib.engineType == some .kubernetes

/-- `destroy_scope` of the tasks of a run. -/
inductive DestroyScope
  | project
  | stack
  deriving DecidableEq, Repr

/-- What is torn down: the modules of a project or of a stack, with an acyclic dependency
map. -/
structure Teardown where
  scope : DestroyScope
  modules : List DestroyModule
  ids_nodup : (modules.map DestroyModule.id).Nodup
  acyclic : ∃ rank : Nat → Nat, ∀ m ∈ modules, ∀ d ∈ m.dependencies, rank d < rank m.id

namespace Teardown

variable (S : Teardown)

def ids : List Nat := S.modules.map DestroyModule.id

/-- `module.dependencies` of the module with this id. -/
def dependencies (x : Nat) : List Nat :=
  match S.modules.find? (·.id == x) with
  | some m => m.dependencies
  | none => []

def inCluster (x : Nat) : Bool := S.modules.any fun m ↦ m.id == x && isInClusterModule m

end Teardown

/-! ### State -/

inductive DestroyPhase
  | queued
  | loaded
  /-- Inside the module lock, with the engine running. -/
  | working
  | raised (x : Exit)
  /-- The final status is committed, the hooks have not begun. -/
  | wrote
  /-- `_mark_task_failed` is committed, its stack progress hook has not run. -/
  | marked
  /-- In the trigger, with the dependencies it has not looked at. -/
  | trigger (deps : List Nat)
  /-- The tests for `dep`, read in status `seen`, have passed; its dispatch is not committed. -/
  | decided (dep : Nat) (seen : ModuleStatus) (deps : List Nat)
  | detect
  /-- Terminal detection has chosen the in-cluster modules it will write off. -/
  | closing (ids : List Nat)
  | ended
  deriving DecidableEq, Repr

structure DestroyWorker where
  module : Nat
  task : TaskStatus
  lock : Option EntityLock
  phase : DestroyPhase
  deriving DecidableEq

/-- The database during a destroy run; the position of a worker is its task's id. -/
structure Chain where
  rows : Nat → Option ModuleRow
  workers : List DestroyWorker
  stackStatus : StackInstanceStatus
  deployedModules : List Nat

namespace Chain

variable (s : Chain)

/-- The status column of a module; `none` where the row is gone. -/
def statusOf (x : Nat) : Option ModuleStatus := (s.rows x).map ModuleRow.status

def onRow (x : Nat) (f : ModuleRow → ModuleRow) : Chain :=
  { s with rows := fun y ↦ if y = x then (s.rows y).map f else s.rows y }

def mapStatus (f : Nat → ModuleStatus → ModuleStatus) : Chain :=
  { s with rows := fun x ↦ (s.rows x).map fun m ↦ { m with status := f x m.status } }

/-- Replace the worker at position `k`. -/
def setWorker (k : Nat) (w : DestroyWorker) : Chain := { s with workers := s.workers.set k w }

def activeDestroy (x : Nat) : Bool := s.workers.any fun w ↦ w.module == x && w.task.active

/-- Queue a destroy task for a module that the session read in status `seen`. -/
def dispatch (seen : ModuleStatus) (x : Nat) : Chain :=
  let t := s.onRow x (ormWrite (some seen) destroying)
  { t with workers := t.workers ++ [⟨x, .queued, none, .queued⟩] }

end Chain

variable (S : Teardown)

/-- `get_reverse_dependencies`, restricted to the stack's `deployed_modules` in stack scope. -/
def dependents (s : Chain) (d : Nat) : List DestroyModule :=
  S.modules.filter fun x ↦ x.dependencies.contains d &&
    (S.scope == .project || s.deployedModules.isEmpty || s.deployedModules.contains x.id)

def clears (x : DestroyModule) (status : ModuleStatus) : Bool :=
  status.noInfra || status == destroyFailed && S.scope == .project && isInClusterModule x

/-! ### First wave -/

def waveDispatch (s : Chain) (m : DestroyModule) : Chain :=
  match s.statusOf m.id with
  | some status =>
    if !status.noInfra &&
        (dependents S s m.id).all (fun x ↦ (s.statusOf x.id).all ModuleStatus.noInfra) &&
        !s.activeDestroy m.id then
      s.dispatch status m.id
    else s
  | none => s

/-- The `force_destroy` pre-pass: in-cluster modules count as destroyed. -/
def forceDestroy (s : Chain) : Chain :=
  s.mapStatus fun x status ↦ if S.inCluster x && !status.noInfra then destroyed else status

/-- `_dispatch_first_destroy_wave` and `_dispatch_first_destroy_wave_stack`. -/
def dispatchFirstDestroyWave (force : Bool) (s : Chain) : Chain :=
  S.modules.foldl (waveDispatch S)
    (if force && S.scope == .project then forceDestroy S s else s)

/-! ### Hooks -/

/-- The tests (a), (b) and (c) of `_trigger_next_destroy_module` for the dependency `d`: its
status when they pass. -/
def triggerTest (s : Chain) (d : Nat) : Option ModuleStatus :=
  match s.statusOf d with
  | some status =>
    if !status.noInfra &&
        (dependents S s d).all (fun x ↦ (s.statusOf x.id).all (clears S x)) &&
        !s.activeDestroy d then
      some status
    else none
  | none => none

def statuses (s : Chain) : List ModuleStatus := S.modules.filterMap fun m ↦ s.statusOf m.id

/-- The status that `update_stack_progress` gives a stack that is not being destroyed and
whose modules are not all destroyed. -/
def deployProgress (all : List ModuleStatus) (stack : StackInstanceStatus) :
    StackInstanceStatus :=
  if all.any failedInName then .failed
  else if all.all (· == applied) then .deployed
  else if all.any transitional then .deploying
  else if all.any (· == applied) then .pending
  else stack

/-- What `update_stack_progress` makes of a stack whose modules have the statuses `all`: its
status and its `deployed_modules`. -/
def stackProgress (all : List ModuleStatus) (stack : StackInstanceStatus) (deployed : List Nat) :
    StackInstanceStatus × List Nat :=
  if all = [] then if stack = .destroying then (.destroyed, []) else (stack, deployed)
  else if stack = .destroying then
    if all.any failedInName then (.failed, deployed)
    else if all.all (· == destroyed) then (.destroyed, deployed)
    else (stack, deployed)
  else if all.all (· == destroyed) then (.destroyed, [])
  else (deployProgress all stack, deployed)

/-- `update_stack_progress` (`backend/services/stack_deployment_service.py:1370`) without the
recovery of stale modules. -/
def updateStackProgress (s : Chain) : Chain :=
  { s with
    stackStatus := (stackProgress (statuses S s) s.stackStatus s.deployedModules).1
    deployedModules := (stackProgress (statuses S s) s.stackStatus s.deployedModules).2 }

/-- `_finalize_destroy` of a stack; `backend/tasks/parallel_tasks.py:150`. -/
def finalizeDestroy (s : Chain) : Chain :=
  { s with
    rows := fun x ↦ if s.deployedModules.contains x then none else s.rows x
    deployedModules := []
    stackStatus := .destroyed }

def scopeStatuses (s : Chain) : List ModuleStatus := s.deployedModules.filterMap s.statusOf

/-- `_run_terminal_detection_stack`. -/
def runTerminalDetectionStack (s : Chain) : Chain :=
  if s.stackStatus ≠ .destroying ∨ s.deployedModules = [] then s
  else if !(scopeStatuses s).all terminalDestroy then s
  else if (scopeStatuses s).any (· == destroyFailed) then { s with stackStatus := .failed }
  else finalizeDestroy s

def failedModules (s : Chain) : List DestroyModule :=
  S.modules.filter fun m ↦ s.statusOf m.id == some destroyFailed

/-- The modules that `_run_terminal_detection_project` will reconcile to `destroyed`: all that
have failed, when every module is terminal and the failed ones are in-cluster. -/
def inClusterFailures (s : Chain) : List Nat :=
  if (statuses S s).all terminalDestroy && (failedModules S s).all isInClusterModule then
    (failedModules S s).map DestroyModule.id
  else []

/-! ### Steps -/

inductive LockOp
  | acquire (reclaim task : Nat) (now : Int)
  | release (l : EntityLock)
  | forceRelease
  | sweep (now : Int)

def LockOp.run (x : Nat) : LockOp → Row ColumnValue → Row ColumnValue
  | .acquire reclaim task now => fun r ↦ (tryAcquire .projectModules reclaim x task now r).1
  | .release l => Lock.release l
  | .forceRelease => fun r ↦ (Lock.forceRelease r).1
  | .sweep now => sweepStale now

/-- What can happen next; `k` is the position of a worker. -/
inductive ChainEvent
  | firstWave (force : Bool)
  | outside (x : Nat) (op : LockOp)
  /-- `update_stack_progress` recovers a stale module (BUG-009). -/
  | recover (x : Nat) (lastTask : Option TaskStatus)
  | load (k : Nat)
  /-- CP-008: nothing was ever applied. -/
  | skip (k : Nat)
  | acquire (k : Nat) (reclaim : Nat) (now : Int)
  | refresh (k : Nat) (now : Int)
  /-- The final fenced write; `seen` is the status its session holds. -/
  | write (k : Nat) (x : Exit) (seen : ModuleStatus) (extra : List (String × ColumnValue))
  | raise (k : Nat) (x : Exit)
  | handle (k : Nat) (seen : Option ModuleStatus)
  | progress (k : Nat)
  /-- The trigger looks at its next dependency. -/
  | test (k : Nat)
  | commitDispatch (k : Nat)
  /-- An exception in the trigger, which is logged and leads on to terminal detection. -/
  | abort (k : Nat)
  | detect (k : Nat)
  | writeOff (k : Nat)
  /-- The worker finds its module's row deleted. -/
  | vanish (k : Nat)

/-- The worker that takes the step. -/
def ChainEvent.actor : ChainEvent → Option Nat
  | .firstWave _ | .outside _ _ | .recover _ _ => none
  | .load k | .skip k | .acquire k _ _ | .refresh k _ | .write k _ _ _ | .raise k _
  | .handle k _ | .progress k | .test k | .commitDispatch k | .abort k | .detect k
  | .writeOff k | .vanish k => some k

/-- Release the lock of worker `w` and put it at position `k` in phase `phase`. -/
def leaveTo (s : Chain) (k : Nat) (w : DestroyWorker) (phase : DestroyPhase) : Chain :=
  (s.onRow w.module (leaveLock w.lock)).setWorker k { w with phase := phase }

/-- Acquire the module lock on row `m`, or run into its timeout. -/
def acquireModuleLock (s : Chain) (k : Nat) (w : DestroyWorker) (m : ModuleRow) (reclaim : Nat)
    (now : Int) : Chain :=
  match tryAcquire .projectModules reclaim m.base.id k now m.base with
  | (base, some l) =>
    (s.onRow w.module fun m ↦ { m with base := base }).setWorker k
      { w with lock := some l, phase := .working }
  | (_, none) => s.setWorker k { w with phase := .raised .lockError }

/-- The final write of worker `w` on its row `m`. A failed `tofu init` returns before the
hooks. -/
def finalWrite (s : Chain) (k : Nat) (w : DestroyWorker) (m : ModuleRow) (l : EntityLock)
    (x : Exit) (seen target : ModuleStatus) (extra : List (String × ColumnValue)) : Chain :=
  let w' := { w with task := x.taskStatus }
  match transitionModuleStatus seen target (some l) extra m with
  | (m', .ok ()) =>
    let t := s.onRow w.module fun _ ↦ m'
    if x = .initFailed then leaveTo t k w' .ended else t.setWorker k { w' with phase := .wrote }
  | (_, .error (.lockLost _)) => leaveTo s k w' (.raised .lockLost)
  | (_, .error (.illegal _ _ _)) => leaveTo s k w' (.raised .exception)

/-- Where a handler goes on after its commit: only the generic one of `opentofu_tasks.py`
updates the stack before the trigger. -/
def afterHandler (x : Nat) (exit : Exit) : DestroyPhase :=
  if exit = .exception ∧ S.inCluster x = false then .marked else .trigger (S.dependencies x)

/-- The step of worker `w` at position `k`, whose module has the row `m`. -/
def workerStep (s : Chain) (k : Nat) (w : DestroyWorker) (m : ModuleRow) :
    ChainEvent → Option Chain
  | .load _ =>
    if w.phase = .queued then
      some (s.setWorker k { w with task := .inProgress, phase := .loaded })
    else none
  | .skip _ =>
    if w.phase = .loaded ∧ m.status.neverApplied then
      some ((s.onRow w.module fun m ↦ { m with status := destroyed }).setWorker k
        { w with task := .completed, phase := .wrote })
    else none
  | .acquire _ reclaim now =>
    if w.phase = .loaded then some (acquireModuleLock s k w m reclaim now) else none
  | .refresh _ now =>
    match w.lock with
    | some l => some (s.onRow w.module (onLockColumns fun r ↦ (Lock.refresh l now r).1))
    | none => none
  | .write _ x seen extra =>
    match w.phase, w.lock, fencedTarget .destroy x with
    | .working, some l, some (target, _) => some (finalWrite s k w m l x seen target extra)
    | _, _, _ => none
  | .raise _ x =>
    if (x = .softTimeLimit ∨ x = .exception) ∧
        (w.phase = .loaded ∨ w.phase = .working ∨ w.phase = .wrote) then
      some (leaveTo s k w (.raised x))
    else none
  | .handle _ seen =>
    match w.phase with
    | .raised x =>
      some ((s.onRow w.module fun m ↦
          ((handlerTarget .destroy x).map fun status ↦ ormWrite seen status m).getD m).setWorker k
        { w with task := .failed, phase := afterHandler S w.module x })
    | _ => none
  | .progress _ =>
    if w.phase = .wrote ∨ w.phase = .marked then
      let t := if S.scope = .stack then updateStackProgress S s else s
      some (t.setWorker k { w with phase := .trigger (S.dependencies w.module) })
    else none
  | .test _ =>
    match w.phase with
    | .trigger [] => some (s.setWorker k { w with phase := .detect })
    | .trigger (d :: deps) =>
      match triggerTest S s d with
      | some seen => some (s.setWorker k { w with phase := .decided d seen deps })
      | none => some (s.setWorker k { w with phase := .trigger deps })
    | _ => none
  | .commitDispatch _ =>
    match w.phase with
    | .decided d seen deps =>
      if (s.rows d).isSome then
        some ((s.setWorker k { w with phase := .trigger deps }).dispatch seen d)
      else none
    | _ => none
  | .abort _ =>
    match w.phase with
    | .trigger _ | .decided _ _ _ => some (s.setWorker k { w with phase := .detect })
    | _ => none
  | .detect _ =>
    if w.phase = .detect then
      match S.scope with
      | .stack => some (leaveTo (runTerminalDetectionStack s) k w .ended)
      | .project => some (s.setWorker k { w with phase := .closing (inClusterFailures S s) })
    else none
  | .writeOff _ =>
    match w.phase with
    | .closing ids =>
      some (leaveTo (s.mapStatus fun x status ↦ if ids.contains x then destroyed else status)
        k w .ended)
    | _ => none
  | _ => none

/-- One event, `none` when it cannot happen. -/
def chainStep (s : Chain) (e : ChainEvent) : Option Chain :=
  match e with
  | .firstWave force => if s.workers = [] then some (dispatchFirstDestroyWave S force s) else none
  | .outside x op => some (s.onRow x (onLockColumns (op.run x)))
  | .recover x lastTask =>
    if (s.statusOf x).any transitional && !s.activeDestroy x then
      some (s.onRow x fun m ↦ { m with status := recoverStale lastTask m.status })
    else none
  | .vanish k =>
    s.workers[k]?.bind fun w ↦
      if s.rows w.module = none then
        some (s.setWorker k
          { w with task := if w.task.active then .failed else w.task, phase := .ended })
      else none
  | e =>
    e.actor.bind fun k ↦ s.workers[k]?.bind fun w ↦
      (s.rows w.module).bind fun m ↦ workerStep S s k w m e

/-- The database when a run begins: no destroy task exists, and a stack lists its modules. -/
def Chain.start (rows : Nat → Option ModuleRow) : Chain := ⟨rows, [], .destroying, S.ids⟩

/-! ### What the updates do to the statuses -/

section Updates

variable {S} (s : Chain)

theorem statusOf_onRow_of_keeps (x : Nat) {f : ModuleRow → ModuleRow}
    (hf : ∀ m, (f m).status = m.status) : (s.onRow x f).statusOf = s.statusOf := by
  funext y
  simp only [Chain.statusOf, Chain.onRow]
  split
  · rw [Option.map_map]
    congr 1
    exact funext hf
  · rfl

theorem onRow_onRow (x : Nat) (f g : ModuleRow → ModuleRow) :
    (s.onRow x f).onRow x g = s.onRow x fun m ↦ g (f m) := by
  simp only [Chain.onRow, Chain.mk.injEq, and_true]
  funext y
  by_cases hy : y = x
  · simp only [hy, if_true, Option.map_map]
    rfl
  · simp only [if_neg hy]

theorem statusOf_onRow_of_ne {x y : Nat} (h : y ≠ x) (f : ModuleRow → ModuleRow) :
    (s.onRow x f).statusOf y = s.statusOf y := by
  simp only [Chain.statusOf, Chain.onRow, if_neg h]

theorem statusOf_onRow_self (x : Nat) (f : ModuleRow → ModuleRow) :
    (s.onRow x f).statusOf x = (s.rows x).map fun m ↦ (f m).status := by
  simp only [Chain.statusOf, Chain.onRow, if_true, Option.map_map]
  rfl

@[simp] theorem statusOf_mapStatus (f : Nat → ModuleStatus → ModuleStatus) (x : Nat) :
    (s.mapStatus f).statusOf x = (s.statusOf x).map (f x) := by
  simp only [Chain.statusOf, Chain.mapStatus, Option.map_map]
  rfl

@[simp] theorem statusOf_setWorker (k : Nat) (w : DestroyWorker) :
    (s.setWorker k w).statusOf = s.statusOf := rfl

@[simp] theorem statusOf_leaveTo (k : Nat) (w : DestroyWorker) (phase : DestroyPhase) :
    (leaveTo s k w phase).statusOf = s.statusOf :=
  statusOf_onRow_of_keeps s w.module (status_leaveLock w.lock)

theorem statusOf_dispatch (seen : ModuleStatus) (x : Nat) :
    (s.dispatch seen x).statusOf x =
      (s.statusOf x).map fun status ↦ if seen = destroying then status else destroying := by
  have h := statusOf_onRow_self s x (ormWrite (some seen) destroying)
  change (s.onRow x (ormWrite (some seen) destroying)).statusOf x = _
  rw [h, Chain.statusOf, Option.map_map]
  congr 1
  funext m
  by_cases hs : seen = destroying <;> simp [ormWrite, hs]

theorem statusOf_dispatch_of_ne {x y : Nat} (h : y ≠ x) (seen : ModuleStatus) :
    (s.dispatch seen x).statusOf y = s.statusOf y :=
  statusOf_onRow_of_ne s h _

@[simp] theorem workers_dispatch (seen : ModuleStatus) (x : Nat) :
    (s.dispatch seen x).workers = s.workers ++ [⟨x, .queued, none, .queued⟩] := rfl

/-- The progress hook keeps `deployed_modules` or clears it. -/
theorem stackProgress_snd (all : List ModuleStatus) (stack : StackInstanceStatus)
    (deployed : List Nat) :
    (stackProgress all stack deployed).2 = deployed ∨ (stackProgress all stack deployed).2 = [] := by
  unfold stackProgress
  repeat' split
  all_goals simp

theorem Teardown.dependencies_of_mem {m : DestroyModule} (hm : m ∈ S.modules) :
    S.dependencies m.id = m.dependencies := by
  unfold Teardown.dependencies
  split
  · next a hfind =>
    have hid : a.id = m.id := by simpa using List.find?_some hfind
    rw [List.inj_on_of_nodup_map S.ids_nodup (List.mem_of_find?_eq_some hfind) hm hid]
  · next hfind => exact absurd (beq_self_eq_true m.id) (List.find?_eq_none.mp hfind m hm)

theorem Teardown.exists_of_mem_dependencies {d x : Nat} (h : d ∈ S.dependencies x) :
    ∃ m ∈ S.modules, m.id = x ∧ d ∈ m.dependencies := by
  unfold Teardown.dependencies at h
  split at h
  · next m hfind =>
    exact ⟨m, List.mem_of_find?_eq_some hfind, by simpa using List.find?_some hfind, h⟩
  · cases h

variable {s} {t : Chain} {k : Nat} {e : ChainEvent}

/-- What a step of worker `w` at position `k`, whose module has the row `m`, does. -/
inductive WorkerMoves (S : Teardown) (s : Chain) (k : Nat) (w : DestroyWorker) (m : ModuleRow) :
    ChainEvent → Chain → Prop
  | load (hp : w.phase = .queued) :
      WorkerMoves S s k w m (.load k)
        (s.setWorker k { w with task := .inProgress, phase := .loaded })
  | skip (hp : w.phase = .loaded) (hnever : m.status.neverApplied = true) :
      WorkerMoves S s k w m (.skip k)
        ((s.onRow w.module fun m ↦ { m with status := destroyed }).setWorker k
          { w with task := .completed, phase := .wrote })
  | acquire (reclaim : Nat) (now : Int) (base : Row ColumnValue) (l : EntityLock)
      (hp : w.phase = .loaded)
      (hl : tryAcquire .projectModules reclaim m.base.id k now m.base = (base, some l)) :
      WorkerMoves S s k w m (.acquire k reclaim now)
        ((s.onRow w.module fun m ↦ { m with base := base }).setWorker k
          { w with lock := some l, phase := .working })
  | timeOut (reclaim : Nat) (now : Int) (base : Row ColumnValue) (hp : w.phase = .loaded)
      (hl : tryAcquire .projectModules reclaim m.base.id k now m.base = (base, none)) :
      WorkerMoves S s k w m (.acquire k reclaim now)
        (s.setWorker k { w with phase := .raised .lockError })
  | refresh (now : Int) (l : EntityLock) (hl : w.lock = some l) :
      WorkerMoves S s k w m (.refresh k now)
        (s.onRow w.module (onLockColumns fun r ↦ (Lock.refresh l now r).1))
  | write (x : Exit) (seen : ModuleStatus) (extra : List (String × ColumnValue)) (l : EntityLock)
      (target : ModuleStatus) (hp : w.phase = .working) (hl : w.lock = some l)
      (htarget : (fencedTarget .destroy x).map Prod.fst = some target) :
      WorkerMoves S s k w m (.write k x seen extra) (finalWrite s k w m l x seen target extra)
  | raise (x : Exit) (hx : x = .softTimeLimit ∨ x = .exception)
      (hp : w.phase = .loaded ∨ w.phase = .working ∨ w.phase = .wrote) :
      WorkerMoves S s k w m (.raise k x) (leaveTo s k w (.raised x))
  | handle (x : Exit) (seen : Option ModuleStatus) (hp : w.phase = .raised x) :
      WorkerMoves S s k w m (.handle k seen)
        ((s.onRow w.module fun m ↦
            ((handlerTarget .destroy x).map fun status ↦ ormWrite seen status m).getD m).setWorker k
          { w with task := .failed, phase := afterHandler S w.module x })
  | progress (hp : w.phase = .wrote ∨ w.phase = .marked) :
      WorkerMoves S s k w m (.progress k)
        ((if S.scope = .stack then updateStackProgress S s else s).setWorker k
          { w with phase := .trigger (S.dependencies w.module) })
  | looked (hp : w.phase = .trigger []) :
      WorkerMoves S s k w m (.test k) (s.setWorker k { w with phase := .detect })
  | decide (d : Nat) (seen : ModuleStatus) (deps : List Nat) (hp : w.phase = .trigger (d :: deps))
      (htest : triggerTest S s d = some seen) :
      WorkerMoves S s k w m (.test k) (s.setWorker k { w with phase := .decided d seen deps })
  | pass (d : Nat) (deps : List Nat) (hp : w.phase = .trigger (d :: deps))
      (htest : triggerTest S s d = none) :
      WorkerMoves S s k w m (.test k) (s.setWorker k { w with phase := .trigger deps })
  | dispatch (d : Nat) (seen : ModuleStatus) (deps : List Nat) (hp : w.phase = .decided d seen deps)
      (hrow : (s.rows d).isSome = true) :
      WorkerMoves S s k w m (.commitDispatch k)
        ((s.setWorker k { w with phase := .trigger deps }).dispatch seen d)
  | abort (hp : (∃ deps, w.phase = .trigger deps) ∨ ∃ d seen deps, w.phase = .decided d seen deps) :
      WorkerMoves S s k w m (.abort k) (s.setWorker k { w with phase := .detect })
  | detectStack (hS : S.scope = .stack) (hp : w.phase = .detect) :
      WorkerMoves S s k w m (.detect k) (leaveTo (runTerminalDetectionStack s) k w .ended)
  | detectProject (hS : S.scope = .project) (hp : w.phase = .detect) :
      WorkerMoves S s k w m (.detect k)
        (s.setWorker k { w with phase := .closing (inClusterFailures S s) })
  | writeOff (ids : List Nat) (hp : w.phase = .closing ids) :
      WorkerMoves S s k w m (.writeOff k)
        (leaveTo (s.mapStatus fun x status ↦ if ids.contains x then destroyed else status) k w .ended)

private theorem workerMoves_of_workerStep {w : DestroyWorker} {m : ModuleRow}
    (hk : e.actor = some k) (hst : workerStep S s k w m e = some t) : WorkerMoves S s k w m e t := by
  unfold workerStep at hst
  cases e with
  | firstWave _ | outside _ _ | recover _ _ => cases hk
  | load _ =>
    cases hk
    obtain ⟨hp, ⟨⟩⟩ := Option.ite_none_right_eq_some.mp hst
    exact .load hp
  | skip _ =>
    cases hk
    obtain ⟨hp, ⟨⟩⟩ := Option.ite_none_right_eq_some.mp hst
    exact .skip hp.1 hp.2
  | acquire _ reclaim now =>
    cases hk
    obtain ⟨hp, ⟨⟩⟩ := Option.ite_none_right_eq_some.mp hst
    unfold acquireModuleLock
    split
    · next base l hl => exact .acquire reclaim now base l hp hl
    · next base hl => exact .timeOut reclaim now base hp hl
  | refresh _ now =>
    cases hk
    dsimp only at hst
    split at hst
    · next l hl =>
      cases hst
      exact .refresh now l hl
    · cases hst
  | write _ x seen extra =>
    cases hk
    dsimp only at hst
    split at hst
    · next l target _ hp hl htarget =>
      cases hst
      exact .write x seen extra l target hp hl (by rw [htarget]; rfl)
    · cases hst
  | raise _ x =>
    cases hk
    obtain ⟨hp, ⟨⟩⟩ := Option.ite_none_right_eq_some.mp hst
    exact .raise x hp.1 hp.2
  | handle _ seen =>
    cases hk
    dsimp only at hst
    split at hst
    · next x hp =>
      cases hst
      exact .handle x seen hp
    · cases hst
  | progress _ =>
    cases hk
    obtain ⟨hp, ⟨⟩⟩ := Option.ite_none_right_eq_some.mp hst
    exact .progress hp
  | test _ =>
    cases hk
    dsimp only at hst
    split at hst
    · next hp =>
      cases hst
      exact .looked hp
    · next d deps hp =>
      split at hst
      · next seen htest =>
        cases hst
        exact .decide d seen deps hp htest
      · next htest =>
        cases hst
        exact .pass d deps hp htest
    · cases hst
  | commitDispatch _ =>
    cases hk
    dsimp only at hst
    split at hst
    · next d seen deps hp =>
      obtain ⟨hrow, ⟨⟩⟩ := Option.ite_none_right_eq_some.mp hst
      exact .dispatch d seen deps hp hrow
    · cases hst
  | abort _ =>
    cases hk
    dsimp only at hst
    split at hst
    · next deps hp =>
      cases hst
      exact .abort (Or.inl ⟨deps, hp⟩)
    · next d seen deps hp =>
      cases hst
      exact .abort (Or.inr ⟨d, seen, deps, hp⟩)
    · cases hst
  | detect _ =>
    cases hk
    obtain ⟨hp, hst⟩ := Option.ite_none_right_eq_some.mp hst
    split at hst
    · next hS =>
      cases hst
      exact .detectStack hS hp
    · next hS =>
      cases hst
      exact .detectProject hS hp
  | writeOff _ =>
    cases hk
    dsimp only at hst
    split at hst
    · next ids hp =>
      cases hst
      exact .writeOff ids hp
    · cases hst
  | vanish _ => cases hst

theorem workerMoves_of_chainStep (hk : e.actor = some k) (hst : chainStep S s e = some t) :
    ∃ w, s.workers[k]? = some w ∧
      ((∃ m, s.rows w.module = some m ∧ WorkerMoves S s k w m e t) ∨
        e = .vanish k ∧ s.rows w.module = none ∧ t = s.setWorker k
          { w with task := if w.task.active then .failed else w.task, phase := .ended }) := by
  cases e with
  | firstWave _ | outside _ _ | recover _ _ => cases hk
  | vanish _ =>
    cases hk
    obtain ⟨w, hw, hst⟩ := Option.bind_eq_some_iff.mp hst
    rw [Option.ite_none_right_eq_some] at hst
    exact ⟨w, hw, Or.inr ⟨rfl, hst.1, (Option.some.inj hst.2).symm⟩⟩
  | _ =>
    simp only [chainStep, hk, Option.bind_some] at hst
    obtain ⟨w, hw, hst⟩ := Option.bind_eq_some_iff.mp hst
    obtain ⟨m, hm, hst⟩ := Option.bind_eq_some_iff.mp hst
    exact ⟨w, hw, Or.inl ⟨m, hm, workerMoves_of_workerStep hk hst⟩⟩

end Updates

def appliedRows (count : Nat) : Nat → Option ModuleRow := fun x ↦
  if x < count then some ⟨applied, ⟨x, none, none, 0, none, fun _ ↦ .null⟩⟩ else none

end BnkForge.Destroy
