import BnkForge.Destroy.Detection

/-!
# The scope of a destroy task

How far a destroy propagates is not decided by the request but found out after the fact:
`_destroy_scope_for` (`backend/tasks/_tofu_helpers.py:311–361`) reads it from the task row each
time the hooks need it. Three writers stamp or omit it: `submit_destroy`, the two first waves
and the trigger; a project's first wave also restamps tasks that it finds in flight
(`backend/services/parallel_execution_service.py:462–529`). Whatever else writes to modules and
stacks is an event of its own.
-/

namespace BnkForge.Destroy.Scope

open ModuleStatus BnkForge.Module Transition List

/-- `meta_data["destroy_scope"]`. -/
inductive Stamp
  | module
  | project
  | stack
  deriving DecidableEq, Repr

structure DestroyTask where
  module : Nat
  status : TaskStatus
  stamp : Option Stamp
  runHandle : Option Nat
  deriving DecidableEq, Repr

structure SiteModule where
  info : DestroyModule
  project : Nat
  stack : Option Nat
  status : ModuleStatus
  deriving DecidableEq, Repr

structure StackRow where
  id : Nat
  status : StackInstanceStatus
  deployedModules : List Nat
  deriving DecidableEq, Repr

/-- What terminal detection declares finished. -/
inductive Entity
  | stack (id : Nat)
  | project (id : Nat)
  deriving DecidableEq, Repr

/-- How far the worker of a destroy task has come. -/
inductive HookPhase
  | running
  /-- The task's terminal status is committed, the hooks have not begun. -/
  | committed
  /-- In front of the scope guard of the trigger. -/
  | guard
  /-- Past the guard, the scope of the run not yet read. -/
  | passed
  | trigger (scope : Option Stamp) (stackScope : Bool) (scopeIds : Option (List Nat))
      (deps : List Nat)
  /-- The tests for `dep` have passed; its dispatch is not committed. -/
  | decided (scope : Option Stamp) (stackScope : Bool) (scopeIds : Option (List Nat)) (dep : Nat)
      (deps : List Nat)
  | detect
  | closing (verdict : Verdict)
  | ended
  deriving DecidableEq, Repr

structure HookWorker where
  module : Nat
  taskId : Option Nat
  phase : HookPhase
  deriving DecidableEq, Repr

inductive WaveEdit
  | adopt (task : Nat)
  | dispatch (module : Nat)
  | writeOff (module : Nat)
  deriving DecidableEq, Repr

/-- A project's first wave that has read and not committed. -/
structure Wave where
  project : Nat
  force : Bool
  runHandle : Nat
  edits : List WaveEdit
  deriving DecidableEq, Repr

/-- The database, its workers and its first waves; a task's position is its id. -/
structure Site where
  modules : List SiteModule
  stackRows : List StackRow
  tasks : List DestroyTask
  /-- The calls of `_finalize_destroy` and `_mark_entity_failed`. -/
  endings : List (Entity × Verdict)
  workers : List HookWorker
  waves : List Wave

namespace Site

variable (s : Site)

def find (x : Nat) : Option SiteModule := s.modules.find? (·.info.id == x)

def setStatus (x : Nat) (status : ModuleStatus) : Site :=
  { s with modules := s.modules.map fun m ↦ if m.info.id = x then { m with status := status } else m }

/-- Replace the worker at position `k`. -/
def setWorker (k : Nat) (w : HookWorker) : Site := { s with workers := s.workers.set k w }

/-- Create a destroy task and set its module to `destroying`. -/
def queue (x : Nat) (stamp : Option Stamp) (runHandle : Option Nat) : Site :=
  { s.setStatus x destroying with
    tasks := s.tasks ++ [⟨x, .queued, stamp, runHandle⟩]
    workers := s.workers ++ [⟨x, some s.tasks.length, .running⟩] }

/-- The position of a non-terminal destroy task of the module. -/
def existingTask (x : Nat) : Option Nat :=
  s.tasks.findIdx? fun t ↦ t.module == x && t.status.active

def newestTask (x : Nat) : Option DestroyTask := (s.tasks.filter (·.module == x)).getLast?

end Site

/-! ### The scope -/

/-- `_destroy_scope_for`; `_tofu_helpers.py:311`. -/
def destroyScopeFor (s : Site) (x : Nat) (taskId : Option Nat) : Option Stamp :=
  let row := match taskId with
    | some id => s.tasks[id]?
    | none => s.newestTask x
  row.bind fun t ↦
    match t.stamp with
    | some stamp => some stamp
    | none => if t.runHandle.isNone then some .module else none

/-! ### First waves -/

/-- What `_dispatch_first_destroy_wave` reads of the modules of a project. A module that the
wave queues had infrastructure before and has it after, so each one is looked at by itself. -/
def waveEdits (s : Site) (project : Nat) (force : Bool) : List WaveEdit :=
  let ms := s.modules.filter (·.project == project)
  let gone := fun m : SiteModule ↦ m.status.noInfra || force && isInClusterModule m.info
  ms.filterMap fun m ↦
    if m.status.noInfra then none
    else if gone m then some (.writeOff m.info.id)
    else if ms.any fun d ↦ d.info.dependencies.contains m.info.id && !gone d then none
    else match s.existingTask m.info.id with
      | some id => some (.adopt id)
      | none => some (.dispatch m.info.id)

def adoptTask (runHandle : Nat) (t : DestroyTask) : DestroyTask :=
  if t.stamp ≠ some .project ∨ t.runHandle = none then
    { t with stamp := some .project, runHandle := some (t.runHandle.getD runHandle) }
  else t

def applyEdit (runHandle : Nat) (s : Site) : WaveEdit → Site
  | .adopt id => { s with tasks := s.tasks.modify id (adoptTask runHandle) }
  | .dispatch x => s.queue x (some .project) (some runHandle)
  | .writeOff x => s.setStatus x destroyed

/-- The commit of `_dispatch_first_destroy_wave`; with `force_destroy`, a wave without tasks
finalizes the project. -/
def commitWave (s : Site) (w : Wave) : Site :=
  let t := w.edits.foldl (applyEdit w.runHandle) s
  if w.force && w.edits.all fun e ↦ match e with | .writeOff _ => true | _ => false then
    { t with endings := t.endings ++ [(.project w.project, .finalize)] }
  else t

/-- `_dispatch_first_destroy_wave_stack`, whose tasks carry a run handle and no stamp. -/
def dispatchFirstDestroyWaveStack (s : Site) (stack runHandle : Nat) : Site :=
  let ms := s.modules.filter fun m ↦ m.stack == some stack && !m.status.noInfra
  (ms.filter fun m ↦ !ms.any (·.info.dependencies.contains m.info.id) &&
      (s.existingTask m.info.id).isNone).foldl
    (fun t m ↦ t.queue m.info.id none (some runHandle)) s

/-- The statuses that `submit_destroy` accepts; `backend/services/project_module_service.py:966`. -/
def destroyable : ModuleStatus → Bool
  | applied | initialized | planned | planFailed | applyFailed | destroyFailed | failed => true
  | _ => false

/-! ### Hooks -/

/-- The tests of the trigger for the dependency `d` of a module of `project`. -/
def triggerTest (s : Site) (project : Nat) (stackScope : Bool) (scopeIds : Option (List Nat))
    (d : Nat) : Bool :=
  match s.find d with
  | none => false
  | some dep =>
    dep.project == project && !dep.status.noInfra &&
      (s.modules.all fun m ↦ !(m.project == project && m.info.dependencies.contains d &&
          scopeIds.all (·.contains m.info.id)) ||
        m.status.noInfra || m.status == destroyFailed && !stackScope && isInClusterModule m.info) &&
      (s.existingTask d).isNone

/-- `_run_terminal_detection_stack`, which holds the stack row. -/
def runTerminalDetectionStack (s : Site) (id : Nat) : Site :=
  match s.stackRows.find? (·.id == id) with
  | none => s
  | some stack =>
    let scope := s.modules.filter fun m ↦ stack.deployedModules.contains m.info.id
    let put := fun row ↦ s.stackRows.map fun r ↦ if r.id = id then row else r
    if stack.status ≠ .destroying ∨ stack.deployedModules = [] ∨
        scope.any (!·.status.terminalDestroy) then s
    else if scope.any (·.status == destroyFailed) then
      { s with
        stackRows := put { stack with status := .failed }
        endings := s.endings ++ [(.stack id, .failed)] }
    else
      { s with
        modules := s.modules.filter fun m ↦ !stack.deployedModules.contains m.info.id
        stackRows := put { stack with status := .destroyed, deployedModules := [] }
        endings := s.endings ++ [(.stack id, .finalize)] }

/-- The read of `_run_terminal_detection_project`. -/
def detectProject (s : Site) (m : SiteModule) : Verdict :=
  let rows := (s.modules.filter (·.project == m.project)).map fun m ↦ (m.info, m.status)
  if ((s.newestTask m.info.id).bind DestroyTask.runHandle).isSome then projectVerdict rows
  else legacyVerdict rows

/-- The commit of `_run_terminal_detection_project`. -/
def declare (s : Site) (project : Nat) (v : Verdict) : Site :=
  if v.declared then
    { s with
      modules := s.modules.map fun m ↦
        if v.ids.contains m.info.id then { m with status := destroyed } else m
      endings := s.endings ++ [(.project project, v)] }
  else s

/-- `update_stack_progress` of the module's stack, without the recovery of stale modules. -/
def updateStackProgress (s : Site) (id : Nat) : Site :=
  let all := (s.modules.filter (·.stack == some id)).map SiteModule.status
  { s with
    stackRows := s.stackRows.map fun r ↦
      if r.id = id then
        { r with
          status := (stackProgress all r.status r.deployedModules).1
          deployedModules := (stackProgress all r.status r.deployedModules).2 }
      else r }

/-! ### Steps -/

/-- What can happen next; `k` is the position of a worker. -/
inductive SiteEvent
  /-- Anybody writes to modules and stacks. -/
  | world (modules : List SiteModule) (stackRows : List StackRow)
  /-- `submit_destroy` of a single module. -/
  | submit (x : Nat)
  | stackWave (stack runHandle : Nat)
  | waveRead (project : Nat) (force : Bool) (runHandle : Nat)
  | waveCommit (j : Nat)
  /-- The janitor resets a task whose worker is gone and runs the hooks again. -/
  | janitor (id : Nat)
  /-- The worker commits its task's terminal status. -/
  | complete (k : Nat) (x : Exit)
  | progress (k : Nat)
  /-- The lock error handlers go to the trigger without an update of the stack. -/
  | enter (k : Nat)
  | guard (k : Nat)
  | readScope (k : Nat)
  | test (k : Nat)
  | commitDispatch (k : Nat)
  | abort (k : Nat)
  | detect (k : Nat)
  | declare (k : Nat)

/-- The worker that takes the step. -/
def SiteEvent.actor : SiteEvent → Option Nat
  | .complete k _ | .progress k | .enter k | .guard k | .readScope k | .test k | .commitDispatch k
  | .abort k | .detect k | .declare k => some k
  | _ => none

/-- The step of worker `w` at position `k`, whose module has the row `m`. -/
def hookStep (s : Site) (k : Nat) (w : HookWorker) (m : SiteModule) : SiteEvent → Option Site
  | .complete _ x =>
    match w.phase, w.taskId with
    | .running, some id =>
      some (({ s with tasks := s.tasks.modify id ({ · with status := x.taskStatus }) }.setStatus
          w.module (if x = Exit.success then destroyed else destroyFailed)).setWorker k
        { w with phase := if x = Exit.initFailed then .ended else .committed })
    | _, _ => none
  | .progress _ =>
    if w.phase = .committed then
      some ((m.stack.elim s (updateStackProgress s)).setWorker k { w with phase := .guard })
    else none
  | .enter _ =>
    if w.phase = .committed then some (s.setWorker k { w with phase := .guard }) else none
  | .guard _ =>
    if w.phase = .guard then
      if destroyScopeFor s w.module w.taskId = some .module then
        some (s.setWorker k { w with phase := .ended })
      else if m.info.dependencies = [] then some (s.setWorker k { w with phase := .detect })
      else some (s.setWorker k { w with phase := .passed })
    else none
  | .readScope _ =>
    if w.phase = .passed then
      let scope := destroyScopeFor s w.module w.taskId
      let stackScope := scope != some .project && m.stack.isSome
      let stack := m.stack.bind fun id ↦ s.stackRows.find? (·.id == id)
      let ids := if stackScope then
          (stack.map StackRow.deployedModules).filter (!·.isEmpty)
        else none
      some (s.setWorker k { w with phase := .trigger scope stackScope ids m.info.dependencies })
    else none
  | .test _ =>
    match w.phase with
    | .trigger _ _ _ [] => some (s.setWorker k { w with phase := .detect })
    | .trigger scope stackScope ids (d :: deps) =>
      if triggerTest s m.project stackScope ids d then
        some (s.setWorker k { w with phase := .decided scope stackScope ids d deps })
      else some (s.setWorker k { w with phase := .trigger scope stackScope ids deps })
    | _ => none
  | .commitDispatch _ =>
    match w.phase with
    | .decided scope stackScope ids d deps =>
      some ((s.setWorker k { w with phase := .trigger scope stackScope ids deps }).queue d scope
        ((s.newestTask w.module).bind DestroyTask.runHandle))
    | _ => none
  | .abort _ =>
    match w.phase with
    | .passed | .trigger _ _ _ _ | .decided _ _ _ _ _ =>
      some (s.setWorker k { w with phase := .detect })
    | _ => none
  | .detect _ =>
    if w.phase = .detect then
      match destroyScopeFor s w.module w.taskId with
      | some .module => some (s.setWorker k { w with phase := .ended })
      | some .project => some (s.setWorker k { w with phase := .closing (detectProject s m) })
      | some .stack =>
        some ((m.stack.elim s (runTerminalDetectionStack s)).setWorker k { w with phase := .ended })
      | none =>
        match m.stack with
        | some id => some ((runTerminalDetectionStack s id).setWorker k { w with phase := .ended })
        | none => some (s.setWorker k { w with phase := .closing (detectProject s m) })
    else none
  | .declare _ =>
    match w.phase with
    | .closing v => some ((declare s m.project v).setWorker k { w with phase := .ended })
    | _ => none
  | _ => none

/-- One event, `none` when it cannot happen. -/
def siteStep (s : Site) (e : SiteEvent) : Option Site :=
  match e with
  | .world modules stackRows => some { s with modules := modules, stackRows := stackRows }
  | .submit x =>
    match s.find x with
    | some m => if destroyable m.status then some (s.queue x (some .module) none) else none
    | none => none
  | .stackWave stack runHandle => some (dispatchFirstDestroyWaveStack s stack runHandle)
  | .waveRead project force runHandle =>
    some { s with
      waves := s.waves ++ [⟨project, force, runHandle, waveEdits s project force⟩] }
  | .waveCommit j =>
    (s.waves[j]?).map fun w ↦ commitWave { s with waves := s.waves.eraseIdx j } w
  | .janitor id =>
    match s.tasks[id]? with
    | some t =>
      if t.status.active then
        some { s with
          modules := s.modules.map fun m ↦
            if m.info.id = t.module ∧ m.status = destroying then { m with status := destroyFailed }
            else m
          tasks := s.tasks.set id { t with status := .failed }
          workers := s.workers ++ [⟨t.module, none, .guard⟩] }
      else none
    | none => none
  | e =>
    e.actor.bind fun k ↦ s.workers[k]?.bind fun w ↦
      (s.find w.module).bind fun m ↦ hookStep s k w m e

/-! ### What the claims of scope say -/

def ModuleScoped (t : DestroyTask) : Prop :=
  t.stamp = some .module ∨ t.stamp = none ∧ t.runHandle = none

def NotAdopting (id : Nat) (s : Site) : SiteEvent → Prop
  | .waveCommit j => ∀ w ∈ s.waves[j]?, .adopt id ∉ w.edits
  | _ => True

/-- A step of worker `k` queues no task, ends no destroy and touches no row of another
module; its stack is touched by `update_stack_progress` alone. -/
def KeepsToItself (k : Nat) (s : Site) (e : SiteEvent) (t : Site) : Prop :=
  e.actor = some k → t.tasks.map DestroyTask.module = s.tasks.map DestroyTask.module ∧
    t.endings = s.endings ∧ (e = .progress k ∨ t.stackRows = s.stackRows) ∧
    ∀ w ∈ s.workers[k]?, ∀ x, x ≠ w.module → t.find x = s.find x

/-- A step of the hooks of worker `k` is one of a project's destroy: the guard lets it pass,
the run's scope and the tasks it queues are the project's, and terminal detection looks at the
project. -/
def ChainsAsProject (k : Nat) (_ : Site) (e : SiteEvent) (t : Site) : Prop :=
  ∀ w ∈ t.workers[k]?,
    (e = .guard k → w.phase = .passed ∨ w.phase = .detect) ∧
    (e = .readScope k → ∃ deps, w.phase = .trigger (some .project) false none deps) ∧
    (e = .commitDispatch k → (t.tasks.getLast?).bind DestroyTask.stamp = some .project) ∧
    (e = .detect k → ∃ v, w.phase = .closing v)

/-! ### The steps of a worker -/

/-- What a step of worker `w` at position `k`, whose module has the row `m`, does. -/
inductive HookMoves (s : Site) (k : Nat) (w : HookWorker) (m : SiteModule) : SiteEvent → Site → Prop
  | complete (x : Exit) (id : Nat) (hp : w.phase = .running) (hid : w.taskId = some id) :
      HookMoves s k w m (.complete k x)
        (({ s with tasks := s.tasks.modify id ({ · with status := x.taskStatus }) }.setStatus
            w.module (if x = Exit.success then destroyed else destroyFailed)).setWorker k
          { w with phase := if x = Exit.initFailed then .ended else .committed })
  | progress (hp : w.phase = .committed) :
      HookMoves s k w m (.progress k)
        ((m.stack.elim s (updateStackProgress s)).setWorker k { w with phase := .guard })
  | enter (hp : w.phase = .committed) :
      HookMoves s k w m (.enter k) (s.setWorker k { w with phase := .guard })
  | stop (hp : w.phase = .guard) (hscope : destroyScopeFor s w.module w.taskId = some .module) :
      HookMoves s k w m (.guard k) (s.setWorker k { w with phase := .ended })
  | leaf (hp : w.phase = .guard) (hscope : destroyScopeFor s w.module w.taskId ≠ some .module)
      (hdeps : m.info.dependencies = []) :
      HookMoves s k w m (.guard k) (s.setWorker k { w with phase := .detect })
  | goOn (hp : w.phase = .guard) (hscope : destroyScopeFor s w.module w.taskId ≠ some .module)
      (hdeps : m.info.dependencies ≠ []) :
      HookMoves s k w m (.guard k) (s.setWorker k { w with phase := .passed })
  | readScope (scope : Option Stamp) (stackScope : Bool) (ids : Option (List Nat))
      (hp : w.phase = .passed) (hscope : scope = destroyScopeFor s w.module w.taskId)
      (hstack : stackScope = (scope != some .project && m.stack.isSome))
      (hids : ids = if stackScope then
          ((m.stack.bind fun id ↦ s.stackRows.find? (·.id == id)).map
            StackRow.deployedModules).filter (!·.isEmpty)
        else none) :
      HookMoves s k w m (.readScope k)
        (s.setWorker k { w with phase := .trigger scope stackScope ids m.info.dependencies })
  | looked (scope : Option Stamp) (stackScope : Bool) (ids : Option (List Nat))
      (hp : w.phase = .trigger scope stackScope ids []) :
      HookMoves s k w m (.test k) (s.setWorker k { w with phase := .detect })
  | decide (scope : Option Stamp) (stackScope : Bool) (ids : Option (List Nat)) (d : Nat)
      (deps : List Nat) (hp : w.phase = .trigger scope stackScope ids (d :: deps))
      (htest : triggerTest s m.project stackScope ids d = true) :
      HookMoves s k w m (.test k)
        (s.setWorker k { w with phase := .decided scope stackScope ids d deps })
  | pass (scope : Option Stamp) (stackScope : Bool) (ids : Option (List Nat)) (d : Nat)
      (deps : List Nat) (hp : w.phase = .trigger scope stackScope ids (d :: deps))
      (htest : triggerTest s m.project stackScope ids d = false) :
      HookMoves s k w m (.test k)
        (s.setWorker k { w with phase := .trigger scope stackScope ids deps })
  | dispatch (scope : Option Stamp) (stackScope : Bool) (ids : Option (List Nat)) (d : Nat)
      (deps : List Nat) (hp : w.phase = .decided scope stackScope ids d deps) :
      HookMoves s k w m (.commitDispatch k)
        ((s.setWorker k { w with phase := .trigger scope stackScope ids deps }).queue d scope
          ((s.newestTask w.module).bind DestroyTask.runHandle))
  | abort (hp : w.phase = .passed ∨
        (∃ scope stackScope ids deps, w.phase = .trigger scope stackScope ids deps) ∨
        ∃ scope stackScope ids d deps, w.phase = .decided scope stackScope ids d deps) :
      HookMoves s k w m (.abort k) (s.setWorker k { w with phase := .detect })
  | detectNothing (hp : w.phase = .detect)
      (hscope : destroyScopeFor s w.module w.taskId = some .module) :
      HookMoves s k w m (.detect k) (s.setWorker k { w with phase := .ended })
  | detectProject (hp : w.phase = .detect)
      (hscope : destroyScopeFor s w.module w.taskId = some .project ∨
        destroyScopeFor s w.module w.taskId = none ∧ m.stack = none) :
      HookMoves s k w m (.detect k)
        (s.setWorker k { w with phase := .closing (detectProject s m) })
  | detectStack (hp : w.phase = .detect)
      (hscope : destroyScopeFor s w.module w.taskId = some .stack ∨
        destroyScopeFor s w.module w.taskId = none ∧ m.stack.isSome = true) :
      HookMoves s k w m (.detect k)
        ((m.stack.elim s (runTerminalDetectionStack s)).setWorker k { w with phase := .ended })
  | declare (v : Verdict) (hp : w.phase = .closing v) :
      HookMoves s k w m (.declare k)
        ((declare s m.project v).setWorker k { w with phase := .ended })

section Moves

variable {s t : Site} {k : Nat} {w : HookWorker} {m : SiteModule} {e : SiteEvent}

private theorem hookMoves_of_hookStep (he : e.actor = some k) (hst : hookStep s k w m e = some t) :
    HookMoves s k w m e t := by
  unfold hookStep at hst
  cases e with
  | world _ _ | submit _ | stackWave _ _ | waveRead _ _ _ | waveCommit _ | janitor _ => cases he
  | complete _ x =>
    cases he
    dsimp only at hst
    split at hst
    · next id hp hid =>
      cases hst
      exact .complete x id hp hid
    · cases hst
  | progress _ =>
    cases he
    obtain ⟨hp, ⟨⟩⟩ := Option.ite_none_right_eq_some.mp hst
    exact .progress hp
  | enter _ =>
    cases he
    obtain ⟨hp, ⟨⟩⟩ := Option.ite_none_right_eq_some.mp hst
    exact .enter hp
  | guard _ =>
    cases he
    obtain ⟨hp, hst⟩ := Option.ite_none_right_eq_some.mp hst
    split at hst
    · next hscope =>
      cases hst
      exact .stop hp hscope
    · next hscope =>
      split at hst
      · next hdeps =>
        cases hst
        exact .leaf hp hscope hdeps
      · next hdeps =>
        cases hst
        exact .goOn hp hscope hdeps
  | readScope _ =>
    cases he
    obtain ⟨hp, ⟨⟩⟩ := Option.ite_none_right_eq_some.mp hst
    exact .readScope _ _ _ hp rfl rfl rfl
  | test _ =>
    cases he
    dsimp only at hst
    split at hst
    · next scope stackScope ids hp =>
      cases hst
      exact .looked scope stackScope ids hp
    · next scope stackScope ids d deps hp =>
      split at hst
      · next htest =>
        cases hst
        exact .decide scope stackScope ids d deps hp htest
      · next htest =>
        cases hst
        exact .pass scope stackScope ids d deps hp (Bool.not_eq_true _ ▸ htest)
    · cases hst
  | commitDispatch _ =>
    cases he
    dsimp only at hst
    split at hst
    · next scope stackScope ids d deps hp =>
      cases hst
      exact .dispatch scope stackScope ids d deps hp
    · cases hst
  | abort _ =>
    cases he
    dsimp only at hst
    split at hst
    · next hp =>
      cases hst
      exact .abort (Or.inl hp)
    · next scope stackScope ids deps hp =>
      cases hst
      exact .abort (Or.inr (Or.inl ⟨scope, stackScope, ids, deps, hp⟩))
    · next scope stackScope ids d deps hp =>
      cases hst
      exact .abort (Or.inr (Or.inr ⟨scope, stackScope, ids, d, deps, hp⟩))
    · cases hst
  | detect _ =>
    cases he
    obtain ⟨hp, hst⟩ := Option.ite_none_right_eq_some.mp hst
    split at hst
    · next hscope =>
      cases hst
      exact .detectNothing hp hscope
    · next hscope =>
      cases hst
      exact .detectProject hp (Or.inl hscope)
    · next hscope =>
      cases hst
      exact .detectStack hp (Or.inl hscope)
    · next hscope =>
      split at hst
      · next id hstack =>
        cases hst
        have hmoves := HookMoves.detectStack (k := k) hp (Or.inr ⟨hscope, by rw [hstack]; rfl⟩)
        rwa [hstack] at hmoves
      · next hstack =>
        cases hst
        exact .detectProject hp (Or.inr ⟨hscope, hstack⟩)
  | declare _ =>
    cases he
    dsimp only at hst
    split at hst
    · next v hp =>
      cases hst
      exact .declare v hp
    · cases hst

private theorem hookMoves_of_siteStep (hst : siteStep s e = some t) (he : e.actor = some k) :
    ∃ w m, s.workers[k]? = some w ∧ s.find w.module = some m ∧ HookMoves s k w m e t := by
  cases e with
  | world _ _ | submit _ | stackWave _ _ | waveRead _ _ _ | waveCommit _ | janitor _ => cases he
  | _ =>
    simp only [siteStep, he, Option.bind_some] at hst
    obtain ⟨w, hk, hst⟩ := Option.bind_eq_some_iff.mp hst
    obtain ⟨m, hm, hst⟩ := Option.bind_eq_some_iff.mp hst
    exact ⟨w, m, hk, hm, hookMoves_of_hookStep he hst⟩

end Moves

/-! ### The scope columns of a task -/

section Columns

def Site.columns (s : Site) (id : Nat) : Option (Option Stamp × Option Nat) :=
  (s.tasks[id]?).map fun t ↦ (t.stamp, t.runHandle)

variable {s t : Site} {id k j : Nat} {c : Option Stamp × Option Nat} {w : HookWorker}
  {m : SiteModule} {e : SiteEvent}

private theorem columns_queue (h : s.columns id = some c) (x : Nat) (stamp : Option Stamp)
    (runHandle : Option Nat) : (s.queue x stamp runHandle).columns id = some c := by
  obtain ⟨row, hrow, rfl⟩ := Option.map_eq_some_iff.mp h
  obtain ⟨hlt, -⟩ := List.getElem?_eq_some_iff.mp hrow
  rw [Site.columns, Site.queue, getElem?_append_left hlt, hrow]
  rfl

private theorem columns_modify (h : s.columns id = some c) {f : DestroyTask → DestroyTask}
    (hf : j = id → ∀ row, (f row).stamp = row.stamp ∧ (f row).runHandle = row.runHandle) :
    ({ s with tasks := s.tasks.modify j f } : Site).columns id = some c := by
  obtain ⟨row, hrow, rfl⟩ := Option.map_eq_some_iff.mp h
  by_cases hj : j = id
  · simp [Site.columns, hrow, hj, hf hj row]
  · simp [Site.columns, hrow, hj]

private theorem tasks_runTerminalDetectionStack (s : Site) (id : Nat) :
    (runTerminalDetectionStack s id).tasks = s.tasks ∧
      (runTerminalDetectionStack s id).workers = s.workers := by
  simp only [runTerminalDetectionStack]
  repeat' split
  all_goals exact ⟨rfl, rfl⟩

private theorem columns_congr (h : s.columns id = some c) (htasks : t.tasks = s.tasks) :
    t.columns id = some c := by
  rw [Site.columns, htasks]
  exact h

private theorem columns_hookMoves (h : s.columns id = some c) (hst : HookMoves s k w m e t) :
    t.columns id = some c := by
  cases hst with
  | complete x j hp hid => exact columns_modify h fun _ _ ↦ ⟨rfl, rfl⟩
  | progress hp => cases hstack : m.stack <;> exact h
  | dispatch _ _ _ _ _ _ => exact columns_queue h _ _ _
  | detectStack hp hscope =>
    cases hstack : m.stack with
    | none => exact h
    | some id => exact columns_congr h (tasks_runTerminalDetectionStack s id).1
  | declare v hp =>
    simp only [declare]
    split <;> exact h
  | _ => exact h

private theorem columns_foldl_queue (ms : List SiteModule) (runHandle : Option Nat)
    (h : s.columns id = some c) :
    (ms.foldl (fun t m ↦ t.queue m.info.id none runHandle) s).columns id = some c := by
  induction ms generalizing s with
  | nil => exact h
  | cons m ms ih => exact ih (columns_queue h _ _ _)

private theorem columns_foldl_applyEdit (edits : List WaveEdit) (runHandle : Nat)
    (hne : .adopt id ∉ edits) (h : s.columns id = some c) :
    (edits.foldl (applyEdit runHandle) s).columns id = some c := by
  induction edits generalizing s with
  | nil => exact h
  | cons edit edits ih =>
    rw [mem_cons, not_or] at hne
    refine ih hne.2 ?_
    cases edit with
    | adopt j => exact columns_modify h fun hj ↦ absurd (by rw [hj]) hne.1
    | dispatch x => exact columns_queue h _ _ _
    | writeOff x => exact h

@[simp] theorem stamp_adoptTask (runHandle : Nat) (t : DestroyTask) :
    (adoptTask runHandle t).stamp = some .project := by
  unfold adoptTask
  split
  · rfl
  · next h =>
    rw [not_or, not_not] at h
    exact h.1

private theorem stamp_foldl_applyEdit (edits : List WaveEdit) (runHandle : Nat)
    (h : (s.columns id).map Prod.fst = some (some .project)) :
    ((edits.foldl (applyEdit runHandle) s).columns id).map Prod.fst = some (some .project) := by
  induction edits generalizing s with
  | nil => exact h
  | cons edit edits ih =>
    refine ih ?_
    obtain ⟨c, hc, hstamp⟩ := Option.map_eq_some_iff.mp h
    cases edit with
    | adopt j =>
      obtain ⟨row, hrow, rfl⟩ := Option.map_eq_some_iff.mp hc
      by_cases hj : j = id
      · simp [applyEdit, Site.columns, hrow, hj]
      · simpa [applyEdit, Site.columns, hrow, hj] using hstamp
    | dispatch x => rw [applyEdit, columns_queue hc, Option.map_some, hstamp]
    | writeOff x => exact h

private theorem stamp_of_adopt (edits : List WaveEdit) (runHandle : Nat) (hmem : .adopt id ∈ edits)
    (h : (s.columns id).isSome = true) :
    ((edits.foldl (applyEdit runHandle) s).columns id).map Prod.fst = some (some .project) := by
  induction edits generalizing s with
  | nil => cases hmem
  | cons edit edits ih =>
    rcases mem_cons.mp hmem with rfl | hmem
    · refine stamp_foldl_applyEdit edits runHandle ?_
      obtain ⟨c, hc⟩ := Option.isSome_iff_exists.mp h
      obtain ⟨row, hrow, -⟩ := Option.map_eq_some_iff.mp hc
      simp [applyEdit, Site.columns, hrow]
    · refine ih hmem ?_
      obtain ⟨c, hc⟩ := Option.isSome_iff_exists.mp h
      cases edit with
      | adopt j =>
        obtain ⟨row, hrow, -⟩ := Option.map_eq_some_iff.mp hc
        simp [applyEdit, Site.columns, getElem?_modify, hrow]
      | dispatch x => rw [applyEdit, columns_queue hc, Option.isSome_some]
      | writeOff x => exact h

private theorem columns_commitWave (w : Wave) (s : Site) :
    (commitWave s w).columns id = (w.edits.foldl (applyEdit w.runHandle) s).columns id := by
  simp only [commitWave]
  split <;> rfl

private theorem columns_siteStep (hst : siteStep s e = some t) (hok : NotAdopting id s e)
    (h : s.columns id = some c) : t.columns id = some c := by
  cases he : e.actor with
  | some k =>
    obtain ⟨w, m, -, -, hst⟩ := hookMoves_of_siteStep hst he
    exact columns_hookMoves h hst
  | none =>
    cases e with
    | world _ _ | waveRead _ _ _ =>
      cases Option.some.inj hst
      exact h
    | submit x =>
      simp only [siteStep] at hst
      repeat' split at hst
      all_goals cases hst
      exact columns_queue h _ _ _
    | stackWave stack runHandle =>
      cases Option.some.inj hst
      exact columns_foldl_queue _ _ h
    | waveCommit j =>
      obtain ⟨w, hw, rfl⟩ := Option.map_eq_some_iff.mp hst
      rw [columns_commitWave]
      exact columns_foldl_applyEdit w.edits w.runHandle (hok w hw) h
    | janitor j =>
      simp only [siteStep] at hst
      split at hst
      · next row hrow =>
        rw [Option.ite_none_right_eq_some] at hst
        cases hst.2
        obtain ⟨row', hrow', rfl⟩ := Option.map_eq_some_iff.mp h
        by_cases hj : j = id
        · subst hj
          cases hrow.symm.trans hrow'
          obtain ⟨hlt, -⟩ := List.getElem?_eq_some_iff.mp hrow
          rw [Site.columns, getElem?_set_self hlt]
          rfl
        · rw [Site.columns, getElem?_set_ne hj, hrow']
          rfl
      · cases hst
    | _ => cases he

private theorem stamp_siteStep (hst : siteStep s e = some t)
    (h : (s.columns id).map Prod.fst = some (some .project)) :
    (t.columns id).map Prod.fst = some (some .project) := by
  obtain ⟨c, hc, hstamp⟩ := Option.map_eq_some_iff.mp h
  cases e with
  | waveCommit j =>
    obtain ⟨w, hw, rfl⟩ := Option.map_eq_some_iff.mp hst
    rw [columns_commitWave]
    exact stamp_foldl_applyEdit w.edits w.runHandle h
  | _ => rw [columns_siteStep hst trivial hc, Option.map_some, hstamp]

end Columns

/-! ### The workers of a step -/

section Workers

variable {s t : Site} {k j : Nat} {v w : HookWorker} {m : SiteModule} {e : SiteEvent}

private theorem getElem?_queue (h : s.workers[j]? = some v) (x : Nat) (stamp : Option Stamp)
    (runHandle : Option Nat) : (s.queue x stamp runHandle).workers[j]? = some v := by
  obtain ⟨hlt, -⟩ := List.getElem?_eq_some_iff.mp h
  rw [Site.queue, getElem?_append_left hlt]
  exact h

private theorem getElem?_foldl_queue (ms : List SiteModule) (runHandle : Option Nat)
    (h : s.workers[j]? = some v) :
    (ms.foldl (fun t m ↦ t.queue m.info.id none runHandle) s).workers[j]? = some v := by
  induction ms generalizing s with
  | nil => exact h
  | cons m ms ih => exact ih (getElem?_queue h _ _ _)

private theorem getElem?_foldl_applyEdit (edits : List WaveEdit) (runHandle : Nat)
    (h : s.workers[j]? = some v) :
    (edits.foldl (applyEdit runHandle) s).workers[j]? = some v := by
  induction edits generalizing s with
  | nil => exact h
  | cons edit edits ih =>
    refine ih ?_
    cases edit with
    | adopt id => exact h
    | dispatch x => exact getElem?_queue h _ _ _
    | writeOff x => exact h

private theorem getElem?_hookMoves (hjk : k ≠ j) (h : s.workers[j]? = some v)
    (hst : HookMoves s k w m e t) : t.workers[j]? = some v := by
  have hset : ∀ (u : Site) (w' : HookWorker), u.workers = s.workers →
      (u.setWorker k w').workers[j]? = some v := by
    intro u w' hu
    rw [Site.setWorker, hu, getElem?_set_ne hjk]
    exact h
  cases hst with
  | progress hp => cases hstack : m.stack <;> exact hset _ _ rfl
  | dispatch _ _ _ _ _ _ => exact getElem?_queue (hset s _ rfl) _ _ _
  | detectStack hp hscope =>
    cases hstack : m.stack with
    | none => exact hset _ _ rfl
    | some id => exact hset _ _ (tasks_runTerminalDetectionStack s id).2
  | declare v hp =>
    apply hset
    simp only [declare]
    split <;> rfl
  | _ => exact hset _ _ rfl

private theorem getElem?_siteStep (hst : siteStep s e = some t) (hne : e.actor ≠ some j)
    (h : s.workers[j]? = some v) : t.workers[j]? = some v := by
  cases he : e.actor with
  | some k =>
    obtain ⟨w, m, -, -, hst⟩ := hookMoves_of_siteStep hst he
    refine getElem?_hookMoves ?_ h hst
    rintro rfl
    exact hne he
  | none =>
    cases e with
    | world _ _ | waveRead _ _ _ =>
      cases Option.some.inj hst
      exact h
    | submit x =>
      simp only [siteStep] at hst
      repeat' split at hst
      all_goals cases hst
      exact getElem?_queue h _ _ _
    | stackWave stack runHandle =>
      cases Option.some.inj hst
      exact getElem?_foldl_queue _ _ h
    | waveCommit i =>
      obtain ⟨w, hw, rfl⟩ := Option.map_eq_some_iff.mp hst
      have hfold := getElem?_foldl_applyEdit (s := { s with waves := s.waves.eraseIdx i }) w.edits
        w.runHandle h
      simp only [commitWave]
      split <;> exact hfold
    | janitor id =>
      simp only [siteStep] at hst
      split at hst
      · rw [Option.ite_none_right_eq_some] at hst
        cases hst.2
        obtain ⟨hlt, -⟩ := List.getElem?_eq_some_iff.mp h
        exact (getElem?_append_left hlt).trans h
      · cases hst
    | _ => cases he

end Workers

/-! ### A single module's destroy -/

section SingleModule

variable {s t : Site} {k id x : Nat} {e : SiteEvent}

/-- The worker's task has module scope and the worker is not past the guard. -/
structure Quiet (k id x : Nat) (s : Site) : Prop where
  scope : destroyScopeFor s x (some id) = some .module
  worker : ∃ phase, s.workers[k]? = some ⟨x, some id, phase⟩ ∧
    (phase = .running ∨ phase = .committed ∨ phase = .guard ∨ phase = .ended)

def scopeOf : Option Stamp × Option Nat → Option Stamp
  | (some stamp, _) => some stamp
  | (none, runHandle) => if runHandle.isNone then some .module else none

private theorem destroyScopeFor_eq (s : Site) (x id : Nat) :
    destroyScopeFor s x (some id) = (s.columns id).bind scopeOf := by
  simp only [destroyScopeFor, Site.columns]
  cases s.tasks[id]? with
  | none => rfl
  | some row =>
    obtain ⟨_, _, stamp, _⟩ := row
    cases stamp <;> rfl

private theorem scope_siteStep (hst : siteStep s e = some t) (hok : NotAdopting id s e)
    (h : destroyScopeFor s x (some id) = some .module) :
    destroyScopeFor t x (some id) = some .module := by
  rw [destroyScopeFor_eq] at h ⊢
  obtain ⟨c, hc, hscope⟩ := Option.bind_eq_some_iff.mp h
  rw [columns_siteStep hst hok hc]
  exact hscope

private theorem find_setStatus (s : Site) {x y : Nat} (hy : y ≠ x) (status : ModuleStatus) :
    (s.setStatus x status).find y = s.find y := by
  simp only [Site.find, Site.setStatus, find?_map]
  have hsame : ((fun m : SiteModule ↦ m.info.id == y) ∘
      fun m ↦ if m.info.id = x then { m with status := status } else m) = fun m ↦ m.info.id == y := by
    funext m
    simp only [Function.comp_apply]
    split <;> rfl
  rw [hsame]
  cases hfind : s.modules.find? (·.info.id == y) with
  | none => rfl
  | some m =>
    have hid : m.info.id = y := by simpa using find?_some hfind
    rw [Option.map_some, if_neg (by rw [hid]; exact hy)]

private theorem map_module_modify (tasks : List DestroyTask) (id : Nat) (status : TaskStatus) :
    (tasks.modify id ({ · with status := status })).map DestroyTask.module =
      tasks.map DestroyTask.module := by
  ext1 i
  rw [getElem?_map, getElem?_map, getElem?_modify]
  cases tasks[i]? with
  | none => rfl
  | some row => simp only [Option.map_eq_map, Option.map_some]; split <;> rfl

private theorem Quiet.step (h : Quiet k id x s) (hok : NotAdopting id s e)
    (hst : siteStep s e = some t) : Quiet k id x t ∧ KeepsToItself k s e t := by
  have hscope := scope_siteStep hst hok h.scope
  obtain ⟨phase, hk, hphase⟩ := h.worker
  by_cases he : e.actor = some k
  · obtain ⟨w, m, hk', hm, hst⟩ := hookMoves_of_siteStep hst he
    cases hk.symm.trans hk'
    obtain ⟨hlt, -⟩ := List.getElem?_eq_some_iff.mp hk
    have hself : ∀ (u : Site) (w' : HookWorker), u.workers = s.workers →
        (u.setWorker k w').workers[k]? = some w' := by
      intro u w' hu
      rw [Site.setWorker, hu, getElem?_set_self hlt]
    -- before the guard, and not past it
    have hbefore : ∀ p : HookPhase, phase = p → p ≠ .running → p ≠ .committed → p ≠ .guard →
        p ≠ .ended → False := by
      rintro p rfl hr hc hg hend
      rcases hphase with hp | hp | hp | hp
      · exact hr hp
      · exact hc hp
      · exact hg hp
      · exact hend hp
    cases hst with
    | complete exit j hp hid =>
      refine ⟨⟨hscope, _, hself _ _ rfl, ?_⟩, fun _ ↦ ⟨?_, rfl, Or.inr rfl, ?_⟩⟩
      · split
        · exact Or.inr (Or.inr (Or.inr rfl))
        · exact Or.inr (Or.inl rfl)
      · exact map_module_modify _ _ _
      · intro w hw y hy
        cases hk.symm.trans hw
        exact find_setStatus _ hy _
    | progress hp =>
      refine ⟨⟨hscope, .guard, ?_, Or.inr (Or.inr (Or.inl rfl))⟩, fun _ ↦ ?_⟩
      · cases hstack : m.stack <;> exact hself _ _ rfl
      · cases hstack : m.stack <;> exact ⟨rfl, rfl, Or.inl rfl, fun _ _ _ _ ↦ rfl⟩
    | enter hp =>
      exact ⟨⟨hscope, .guard, hself _ _ rfl, Or.inr (Or.inr (Or.inl rfl))⟩,
        fun _ ↦ ⟨rfl, rfl, Or.inr rfl, fun _ _ _ _ ↦ rfl⟩⟩
    | stop hp _ =>
      exact ⟨⟨hscope, .ended, hself _ _ rfl, Or.inr (Or.inr (Or.inr rfl))⟩,
        fun _ ↦ ⟨rfl, rfl, Or.inr rfl, fun _ _ _ _ ↦ rfl⟩⟩
    | leaf _ hne _ | goOn _ hne _ => exact absurd h.scope hne
    | readScope _ _ _ hp _ _ _ | looked _ _ _ hp | decide _ _ _ _ _ hp _ | pass _ _ _ _ _ hp _
    | dispatch _ _ _ _ _ hp | detectNothing hp _ | detectProject hp _ | detectStack hp _
    | declare _ hp => exact (hbefore _ hp nofun nofun nofun nofun).elim
    | abort hp =>
      rcases hp with hp | ⟨_, _, _, _, hp⟩ | ⟨_, _, _, _, _, hp⟩
      all_goals exact (hbefore _ hp nofun nofun nofun nofun).elim
  · exact ⟨⟨hscope, phase, getElem?_siteStep hst he hk, hphase⟩, fun hactor ↦ absurd hactor he⟩

end SingleModule

/-! ### An adopted destroy -/

section Adopted

variable {s t : Site} {k id x : Nat} {e : SiteEvent}

/-- The scope that a worker past the guard carries is the project's. -/
def HookPhase.ofProject : HookPhase → Prop
  | .trigger scope stackScope ids _ | .decided scope stackScope ids _ _ =>
    scope = some .project ∧ stackScope = false ∧ ids = none
  | _ => True

/-- The worker's task belongs to a project's run. -/
structure Adopted (k id x : Nat) (s : Site) : Prop where
  stamp : (s.columns id).map Prod.fst = some (some .project)
  worker : ∃ phase, s.workers[k]? = some ⟨x, some id, phase⟩ ∧ phase.ofProject

private theorem Adopted.scope (h : Adopted k id x s) (y : Nat) :
    destroyScopeFor s y (some id) = some .project := by
  rw [destroyScopeFor_eq]
  obtain ⟨c, hc, hstamp⟩ := Option.map_eq_some_iff.mp h.stamp
  obtain ⟨stamp, runHandle⟩ := c
  cases hstamp
  rw [hc]
  rfl

private theorem Adopted.step (h : Adopted k id x s) (hst : siteStep s e = some t) :
    Adopted k id x t ∧ ChainsAsProject k s e t := by
  have hstamp := stamp_siteStep hst h.stamp
  have hscope := h.scope
  obtain ⟨phase, hk, hphase⟩ := h.worker
  by_cases he : e.actor = some k
  · obtain ⟨w, m, hk', hm, hst⟩ := hookMoves_of_siteStep hst he
    cases hk.symm.trans hk'
    obtain ⟨hlt, -⟩ := List.getElem?_eq_some_iff.mp hk
    have hself : ∀ (u : Site) (w' : HookWorker), u.workers = s.workers →
        (u.setWorker k w').workers[k]? = some w' := by
      intro u w' hu
      rw [Site.setWorker, hu, getElem?_set_self hlt]
    have hnext : ∀ {p}, t.workers[k]? = some ⟨x, some id, p⟩ → p.ofProject →
        Adopted k id x t :=
      fun ht hp ↦ ⟨hstamp, _, ht, hp⟩
    cases hst with
    | complete exit j hp hid =>
      refine ⟨hnext (hself _ _ rfl) ?_, fun _ _ ↦ ⟨nofun, nofun, nofun, nofun⟩⟩
      split <;> trivial
    | progress hp =>
      refine ⟨hnext (p := .guard) ?_ trivial, fun _ _ ↦ ⟨nofun, nofun, nofun, nofun⟩⟩
      cases hstack : m.stack <;> exact hself _ _ rfl
    | enter hp =>
      exact ⟨hnext (hself _ _ rfl) trivial, fun _ _ ↦ ⟨nofun, nofun, nofun, nofun⟩⟩
    | stop _ hmodule => cases (hscope _).symm.trans hmodule
    | leaf _ _ _ =>
      refine ⟨hnext (hself _ _ rfl) trivial, fun w hw ↦ ⟨fun _ ↦ ?_, nofun, nofun, nofun⟩⟩
      cases (hself _ _ rfl).symm.trans hw
      exact Or.inr rfl
    | goOn _ _ _ =>
      refine ⟨hnext (hself _ _ rfl) trivial, fun w hw ↦ ⟨fun _ ↦ ?_, nofun, nofun, nofun⟩⟩
      cases (hself _ _ rfl).symm.trans hw
      exact Or.inl rfl
    | readScope scope stackScope ids hp hread hstack hids =>
      rw [hscope] at hread
      subst hread
      subst hstack
      subst hids
      refine ⟨hnext (hself _ _ rfl) ⟨rfl, rfl, rfl⟩, fun w hw ↦ ⟨nofun, fun _ ↦ ?_, nofun, nofun⟩⟩
      cases (hself _ _ rfl).symm.trans hw
      exact ⟨_, rfl⟩
    | looked _ _ _ _ | abort _ =>
      exact ⟨hnext (hself _ _ rfl) trivial, fun _ _ ↦ ⟨nofun, nofun, nofun, nofun⟩⟩
    | decide _ _ _ _ _ hp _ | pass _ _ _ _ _ hp _ =>
      cases hp
      exact ⟨hnext (hself _ _ rfl) hphase, fun _ _ ↦ ⟨nofun, nofun, nofun, nofun⟩⟩
    | dispatch scope stackScope ids d deps hp =>
      cases hp
      refine ⟨hnext (getElem?_queue (hself s _ rfl) _ _ _) hphase,
        fun w hw ↦ ⟨nofun, nofun, fun _ ↦ ?_, nofun⟩⟩
      rw [Site.queue, getLast?_concat]
      exact hphase.1
    | detectNothing _ hmodule => cases (hscope _).symm.trans hmodule
    | detectProject _ _ =>
      refine ⟨hnext (hself _ _ rfl) trivial, fun w hw ↦ ⟨nofun, nofun, nofun, fun _ ↦ ?_⟩⟩
      cases (hself _ _ rfl).symm.trans hw
      exact ⟨_, rfl⟩
    | detectStack _ hstack =>
      rcases hstack with hstack | ⟨hstack, -⟩ <;> cases (hscope _).symm.trans hstack
    | declare v hp =>
      refine ⟨hnext (hself _ _ ?_) trivial, fun _ _ ↦ ⟨nofun, nofun, nofun, nofun⟩⟩
      simp only [declare]
      split <;> rfl
  · refine ⟨⟨hstamp, phase, getElem?_siteStep hst he hk, hphase⟩, fun _ _ ↦ ?_⟩
    refine ⟨?_, ?_, ?_, ?_⟩ <;> rintro rfl <;> exact absurd rfl he

private theorem adopted_of_waveCommit {j : Nat} {wave : Wave} (hwave : s.waves[j]? = some wave)
    (hmem : .adopt id ∈ wave.edits) (hrow : id < s.tasks.length)
    (hk : s.workers[k]? = some ⟨x, some id, .running⟩) (hst : siteStep s (.waveCommit j) = some t) :
    Adopted k id x t := by
  refine ⟨?_, .running, getElem?_siteStep hst nofun hk, trivial⟩
  obtain ⟨w, hw, rfl⟩ := Option.map_eq_some_iff.mp hst
  cases hwave.symm.trans hw
  rw [columns_commitWave]
  refine stamp_of_adopt wave.edits wave.runHandle hmem ?_
  rw [Site.columns, getElem?_eq_getElem hrow]
  rfl

end Adopted

/-! ### Single-module destroys do not cascade -/

private theorem scope_of_moduleScoped {s : Site} {id : Nat} {row : DestroyTask}
    (hrow : s.tasks[id]? = some row) (h : ModuleScoped row) (x : Nat) :
    destroyScopeFor s x (some id) = some .module := by
  simp only [destroyScopeFor, hrow, Option.bind_some]
  rcases h with h | ⟨h, hrun⟩
  · rw [h]
  · rw [h, hrun]
    rfl

/-- From any site, the worker of a destroy task with module scope queues no destroy and ends
none, however it ends and whatever happens around it, as long as no first wave adopts the
task; a first wave that adopts a task still running makes its hooks those of a project's
destroy for good. -/
theorem singleModuleDestroy_keepsToItself (s : Site) (k id : Nat) (row : DestroyTask) (x : Nat)
    (hrow : s.tasks[id]? = some row) (hk : s.workers[k]? = some ⟨x, some id, .running⟩) :
    (ModuleScoped row → ∀ es t, Run siteStep (NotAdopting id) s es t →
      AllSteps siteStep (KeepsToItself k) s es) ∧
    ∀ j wave t, s.waves[j]? = some wave → .adopt id ∈ wave.edits →
      siteStep s (.waveCommit j) = some t → ∀ es u, Run siteStep Free t es u →
        AllSteps siteStep (ChainsAsProject k) t es ∧
          destroyScopeFor u x (some id) = some .project := by
  obtain ⟨hlt, -⟩ := List.getElem?_eq_some_iff.mp hrow
  constructor
  · intro hmodule es t hrun
    have hquiet : Quiet k id x s :=
      ⟨scope_of_moduleScoped hrow hmodule x, .running, hk, Or.inl rfl⟩
    exact hrun.allSteps hquiet fun a e b ha hok hst ↦ ha.step hok hst
  · intro j wave t hwave hmem hst es u hrun
    have hadopted := adopted_of_waveCommit hwave hmem hlt hk hst
    constructor
    · exact hrun.allSteps hadopted fun a e b ha _ hst ↦ ha.step hst
    · exact (hrun.invariant hadopted fun a e b ha _ hst ↦ (ha.step hst).1).scope x

/-- Module 1 rests on module 0; nothing runs. -/
def idleSite : Site :=
  { modules := [⟨⟨0, [], none⟩, 0, none, applied⟩, ⟨⟨1, [0], none⟩, 0, none, applied⟩]
    stackRows := []
    tasks := []
    endings := []
    workers := []
    waves := [] }

/-- Module 1 is destroyed by itself, and a destroy of the whole project has just seen that. -/
def leafDestroy : Site :=
  { modules := [⟨⟨0, [], none⟩, 0, none, applied⟩, ⟨⟨1, [0], none⟩, 0, none, destroying⟩]
    stackRows := []
    tasks := [⟨1, .queued, some .module, none⟩]
    endings := []
    workers := [⟨1, some 0, .running⟩]
    waves := [⟨0, false, 7, [.adopt 0]⟩] }

/-- Adopted, the destroy of module 1 goes on with module 0. -/
def adoptedHooks : List SiteEvent :=
  [.complete 0 .success, .enter 0, .guard 0, .readScope 0, .test 0, .commitDispatch 0, .test 0,
    .detect 0]

theorem singleModuleDestroy_keepsToItself_leaf :
    exec siteStep idleSite [.submit 1, .waveRead 0 false 7] = some leafDestroy ∧
    AllSteps siteStep (KeepsToItself 0) leafDestroy [.complete 0 .success, .enter 0, .guard 0] ∧
    ∃ t u, siteStep leafDestroy (.waveCommit 0) = some t ∧
      exec siteStep t adoptedHooks = some u ∧ u.tasks.map DestroyTask.module = [1, 0] ∧
      AllSteps siteStep (ChainsAsProject 0) t adoptedHooks := by
  have h := singleModuleDestroy_keepsToItself leafDestroy 0 0 ⟨1, .queued, some .module, none⟩ 1
    rfl rfl
  refine ⟨rfl, ?_, _, _, rfl, rfl, rfl, ?_⟩
  · exact h.1 (Or.inl rfl) _ _
      (.cons trivial rfl (.cons trivial rfl (.cons trivial rfl (.nil _))))
  · exact (h.2 0 _ _ rfl (List.mem_singleton.mpr rfl) rfl _ _
      (Run.free_iff_exec.mpr rfl)).1

end BnkForge.Destroy.Scope
