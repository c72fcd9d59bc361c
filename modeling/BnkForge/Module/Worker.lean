import BnkForge.Lib.Transition
import BnkForge.Module.Outcomes

/-!
# Workers on one module row

The engine tasks of `backend/tasks/opentofu_tasks.py` as concurrent workers on one
`project_modules` row, commit by commit: session loads, lock statements, fenced writes,
exception handlers (which run after the lock is released), completion hooks and
`cancel_operation` (`backend/services/project_module_service.py:1236–1376`). What the hooks
decide from other rows is an input, and they commit after they have read. An ORM write of the
value a session already holds sends no `UPDATE`. The other engines write the same statuses
under the lock, with other columns beside them.
-/

namespace BnkForge.Module

open ModuleStatus Lock Transition

/-! ### State -/

/-- How far a worker has come in its task body. -/
inductive WorkPhase
  | queued
  /-- The row is loaded, the lock not acquired. -/
  | loaded
  /-- Inside `with module_lock(...)`. -/
  | working
  /-- Inside the lock, the final status is written and the completion hooks run. -/
  | wrote
  /-- An exception has left the `with` block, its handler has not run. -/
  | raised (x : Exit)
  /-- The handler has written, its hooks run. -/
  | handled
  | ended
  deriving DecidableEq, Repr

structure Worker where
  type : TaskType
  task : TaskStatus
  /-- The lock its acquisition handed out, also after it is released. -/
  lock : Option EntityLock
  /-- `module.status` as loaded in its session, `none` when expired. -/
  seen : Option ModuleStatus
  phase : WorkPhase
  /-- The status and the tasks that a running hook has decided on and not yet committed. -/
  decided : Option (ModuleStatus × List TaskType)
  /-- `cancel_operation` has committed for its task. -/
  cancelled : Bool
  deriving DecidableEq

def Worker.queued (type : TaskType) : Worker :=
  ⟨type, .queued, none, none, .queued, none, false⟩

structure Shop where
  row : ModuleRow
  workers : List Worker

/-- No task of the module is pending, queued or in progress. -/
def Shop.quiet (s : Shop) : Bool := s.workers.all fun w ↦ !w.task.active

def Shop.lastTask (s : Shop) : Option TaskStatus := s.workers.getLast?.map (·.task)

inductive Hook
  /-- The recovery in `update_stack_progress`. -/
  | progress
  /-- `_dispatch_first_wave` or `_trigger_next_stack_module` queues the module again. -/
  | redispatch
  /-- Terminal detection of a project destroy writes off an in-cluster module. -/
  | writeOffInCluster
  deriving DecidableEq, Repr

/-- The status a hook sets on a module that it reads in `status`, and the tasks it queues;
`none` when it leaves the module alone. -/
def hookDecision (s : Shop) (status : ModuleStatus) : Hook → Option (ModuleStatus × List TaskType)
  | .progress =>
    if status.transitional && s.quiet then some (recoverStale s.lastTask status, []) else none
  | .redispatch =>
    if !s.quiet then none
    else if status = notInitialized then some (initializing, [.init])
    else some (applying, [.apply])
  | .writeOffInCluster => if status = destroyFailed then some (destroyed, []) else none

/-! ### Steps -/

/-- What can happen next; `k` is the position of a worker. -/
inductive ShopEvent
  /-- A route or dispatcher queues a task and sets the status. -/
  | submit (type : TaskType) (status : ModuleStatus)
  | forceRelease
  | sweep (now : Int)
  /-- `cancel_operation` commits; `seen` is the status its session holds. -/
  | cancel (seen : ModuleStatus)
  /-- `cancel_operation` without a dispatched task: only the status is reset. -/
  | resetStuck (seen : ModuleStatus)
  /-- Another route writes the status. -/
  | adminStatus (status : ModuleStatus)
  /-- The stale-execution janitor fails a task whose worker does not answer. -/
  | janitor (task : Nat)
  | load (k : Nat)
  | expire (k : Nat)
  | acquire (k : Nat) (reclaim : Nat) (now : Int)
  | refresh (k : Nat) (now : Int)
  /-- The status write of the task body that belongs to the way out `x`. -/
  | write (k : Nat) (x : Exit) (extra : List (String × ColumnValue))
  /-- The second write of an init with auto-apply. -/
  | writeApplying (k : Nat)
  | raise (k : Nat) (x : Exit)
  | handle (k : Nat)
  /-- CP-008: a destroy of a module that was never applied. -/
  | skipDestroy (k : Nat)
  | hook (k : Nat) (h : Hook)
  | commitHook (k : Nat)
  | finish (k : Nat)

/-- The worker that takes the step. -/
def ShopEvent.actor : ShopEvent → Option Nat
  | .submit _ _ | .forceRelease | .sweep _ | .cancel _ | .resetStuck _ | .adminStatus _
  | .janitor _ => none
  | .load k | .expire k | .acquire k _ _ | .refresh k _ | .write k _ _ | .writeApplying k
  | .raise k _ | .handle k | .skipDestroy k | .hook k _ | .commitHook k | .finish k => some k

def onLockColumns (f : Row ColumnValue → Row ColumnValue) (m : ModuleRow) : ModuleRow :=
  { m with base := f m.base }

/-- Leave the `with` block: release the lock that was handed out, if one was. -/
def leaveLock (lock : Option EntityLock) (m : ModuleRow) : ModuleRow :=
  match lock with
  | some l => onLockColumns (release l) m
  | none => m

/-- `module.status = status` and a commit in a session that holds `seen`. -/
def ormWrite (seen : Option ModuleStatus) (status : ModuleStatus) (m : ModuleRow) : ModuleRow :=
  if seen = some status then m else { m with status := status }

/-- The status a session finds when it reads `module.status`. -/
def Worker.reads (w : Worker) (m : ModuleRow) : ModuleStatus := w.seen.getD m.status

/-- A fenced status write of worker `k`: it goes on in phase `wrote`, or an exception leaves
the `with` block. -/
def fencedWrite (s : Shop) (k : Nat) (w : Worker) (l : EntityLock) (target : ModuleStatus)
    (extra : List (String × ColumnValue)) : Shop :=
  match transitionModuleStatus (w.reads s.row) target (some l) extra s.row with
  | (m, .ok ()) => ⟨m, s.workers.set k { w with phase := .wrote, seen := none }⟩
  | (m, .error (.lockLost _)) =>
    ⟨leaveLock w.lock m, s.workers.set k { w with phase := .raised .lockLost, seen := none }⟩
  | (m, .error (.illegal _ _ _)) =>
    ⟨leaveLock w.lock m, s.workers.set k { w with phase := .raised .exception, seen := none }⟩

def acquireLock (s : Shop) (k : Nat) (w : Worker) (reclaim : Nat) (now : Int) : Shop :=
  match tryAcquire .projectModules reclaim s.row.base.id k now s.row.base with
  | (base, some l) =>
    ⟨{ s.row with base := base },
      s.workers.set k { w with lock := some l, phase := .working, seen := none }⟩
  | (base, none) =>
    ⟨{ s.row with base := base },
      s.workers.set k { w with phase := .raised .lockError, seen := none }⟩

/-- The handler of the exception that left the `with` block. -/
def runHandler (s : Shop) (k : Nat) (w : Worker) (x : Exit) : Shop :=
  let after := s.workers.set k { w with phase := .handled, task := .failed, seen := none }
  match handlerTarget w.type x with
  | some status => ⟨ormWrite w.seen status s.row, after⟩
  | none => ⟨s.row, after⟩

def cancelTasks (workers : List Worker) : List Worker :=
  workers.map fun w ↦
    if w.task.active then { w with task := .cancelled, cancelled := true } else w

/-- `reset_stale_tasks` for one task; `backend/services/execution_janitor.py:84`. A destroy
task's module is failed from `destroying`, another one's from the other statuses. -/
def resetStaleTask (s : Shop) (k : Nat) (w : Worker) : Option Shop :=
  if w.task.active then
    some ⟨if w.type = .destroy ↔ s.row.status = destroying then
        { s.row with status := failedOf s.row.status }
      else s.row, s.workers.set k { w with task := .failed }⟩
  else none

/-- The step of worker `w` at position `k`. -/
def workerStep (s : Shop) (k : Nat) (w : Worker) : ShopEvent → Option Shop
  | .load _ =>
    if w.phase = .queued then
      some ⟨s.row, s.workers.set k
        { w with task := .inProgress, seen := some s.row.status, phase := .loaded }⟩
    else some ⟨s.row, s.workers.set k { w with seen := some s.row.status }⟩
  | .expire _ => some ⟨s.row, s.workers.set k { w with seen := none }⟩
  | .acquire _ reclaim now =>
    if w.phase = .loaded then some (acquireLock s k w reclaim now) else none
  | .refresh _ now =>
    match w.lock with
    | some l => some { s with row := onLockColumns (fun r ↦ (refresh l now r).1) s.row }
    | none => none
  | .write _ x extra =>
    match w.phase, w.lock, fencedTarget w.type x with
    | .working, some l, some (target, _) =>
      some (fencedWrite s k { w with task := x.taskStatus } l target extra)
    | _, _, _ => none
  | .writeApplying _ =>
    match w.phase, w.lock with
    | .wrote, some l =>
      if w.type = .init then some (fencedWrite s k w l applying []) else none
    | _, _ => none
  | .raise _ x =>
    if (x = .softTimeLimit ∨ x = .exception) ∧
        (w.phase = .loaded ∨ w.phase = .working ∨ w.phase = .wrote) then
      some ⟨leaveLock w.lock s.row, s.workers.set k { w with phase := .raised x, decided := none }⟩
    else none
  | .handle _ =>
    match w.phase with
    | .raised x => some (runHandler s k w x)
    | _ => none
  | .skipDestroy _ =>
    if w.phase = .loaded ∧ w.type = .destroy ∧ (w.reads s.row).neverApplied then
      some ⟨ormWrite w.seen destroyed s.row,
        s.workers.set k { w with task := .completed, phase := .handled, seen := none }⟩
    else none
  | .hook _ h =>
    if w.phase = .wrote ∨ w.phase = .handled then
      let status := w.reads s.row
      some ⟨s.row, s.workers.set k
        { w with seen := some status, decided := hookDecision s status h }⟩
    else none
  | .commitHook _ =>
    match w.decided with
    | some (status, types) =>
      some ⟨ormWrite w.seen status s.row,
        s.workers.set k { w with seen := none, decided := none } ++ types.map Worker.queued⟩
    | none => none
  | .finish _ =>
    if w.decided.isSome then none
    else if w.phase = .wrote then
      some ⟨leaveLock w.lock s.row, s.workers.set k { w with phase := .ended }⟩
    else if w.phase = .handled then some ⟨s.row, s.workers.set k { w with phase := .ended }⟩
    else none
  | _ => none

/-- One event, `none` when it cannot happen. -/
def shopStep (s : Shop) (e : ShopEvent) : Option Shop :=
  match e with
  | .submit type status =>
    some ⟨{ s.row with status := status }, s.workers ++ [Worker.queued type]⟩
  | .forceRelease => some { s with row := onLockColumns (fun r ↦ (forceRelease r).1) s.row }
  | .sweep now => some { s with row := onLockColumns (sweepStale now) s.row }
  | .cancel seen =>
    if s.quiet then none
    else
      some ⟨if seen.transitional then { s.row with status := resetModuleStatus seen } else s.row,
        cancelTasks s.workers⟩
  | .resetStuck seen =>
    if seen.transitional then
      some { s with row := { s.row with status := resetModuleStatus seen } }
    else none
  | .adminStatus status => some { s with row := { s.row with status := status } }
  | .janitor k => s.workers[k]?.bind (resetStaleTask s k)
  | e =>
    match e.actor with
    | some k => s.workers[k]?.bind fun w ↦ workerStep s k w e
    | none => none

/-! ### What a step does to the status -/

def underLockWrite (w : Worker) : ShopEvent → Option (ModuleStatus × List (String × ColumnValue))
  | .write _ x extra => (fencedTarget w.type x).map fun target ↦ (target.1, extra)
  | .writeApplying _ => some (applying, [])
  | _ => none

/-- The status that a worker's step sets without the fence. -/
def unfencedWrite (w : Worker) : ShopEvent → Option ModuleStatus
  | .handle _ =>
    match w.phase with
    | .raised x => handlerTarget w.type x
    | _ => none
  | .skipDestroy _ => some destroyed
  | .commitHook _ => w.decided.map Prod.fst
  | _ => none

section Status

variable {s t : Shop} {k : Nat} {w : Worker} {e : ShopEvent}

@[simp] theorem status_leaveLock (lock : Option EntityLock) (m : ModuleRow) :
    (leaveLock lock m).status = m.status := by
  unfold leaveLock
  split <;> rfl

theorem fence_leaveLock (lock : Option EntityLock) (m : ModuleRow) :
    (leaveLock lock m).fence = m.fence := by
  unfold leaveLock
  split
  · exact lockFenceToken_release _ _
  · rfl

theorem status_ormWrite_eq_iff (seen : Option ModuleStatus) (status : ModuleStatus)
    (m : ModuleRow) :
    (ormWrite seen status m).status = m.status ↔ seen = some status ∨ m.status = status := by
  unfold ormWrite
  by_cases h : seen = some status
  · simp [h]
  · simp [h, eq_comm]

@[simp] theorem fence_ormWrite (seen : Option ModuleStatus) (status : ModuleStatus)
    (m : ModuleRow) : (ormWrite seen status m).fence = m.fence := by
  unfold ormWrite
  split <;> rfl

/-- A fenced write leaves in the row what `transition_module_status` leaves there, but for
the holder columns. -/
theorem row_fencedWrite (s : Shop) (k : Nat) (w : Worker) (l : EntityLock)
    (target : ModuleStatus) (extra : List (String × ColumnValue)) :
    let m := (transitionModuleStatus (w.reads s.row) target (some l) extra s.row).1
    (fencedWrite s k w l target extra).row.status = m.status ∧
      (fencedWrite s k w l target extra).row.fence = m.fence := by
  unfold fencedWrite
  rcases transitionModuleStatus (w.reads s.row) target (some l) extra s.row with ⟨m, _ | _⟩
  · next error => cases error <;> simp [fence_leaveLock]
  · simp

theorem status_acquireLock (s : Shop) (k : Nat) (w : Worker) (reclaim : Nat) (now : Int) :
    (acquireLock s k w reclaim now).row.status = s.row.status := by
  unfold acquireLock
  split <;> rfl

theorem row_runHandler (s : Shop) (k : Nat) (w : Worker) (x : Exit) :
    (runHandler s k w x).row =
      match handlerTarget w.type x with
      | some status => ormWrite w.seen status s.row
      | none => s.row := by
  unfold runHandler
  cases handlerTarget w.type x <;> rfl

theorem status_workerStep_of_no_write (hu : underLockWrite w e = none)
    (hn : unfencedWrite w e = none) (h : workerStep s k w e = some t) :
    t.row.status = s.row.status := by
  cases e with
  | load _ =>
    simp only [workerStep] at h
    split at h <;> cases h <;> rfl
  | expire _ => cases h; rfl
  | acquire _ reclaim now =>
    simp only [workerStep, Option.ite_none_right_eq_some] at h
    cases h.2
    exact status_acquireLock s k w reclaim now
  | refresh _ now =>
    simp only [workerStep] at h
    split at h
    · cases h; rfl
    · cases h
  | write _ x extra =>
    simp only [underLockWrite, Option.map_eq_none_iff] at hu
    simp only [workerStep, hu] at h
    split at h
    · next heq => cases heq
    · cases h
  | raise _ x =>
    simp only [workerStep, Option.ite_none_right_eq_some] at h
    cases h.2
    exact status_leaveLock w.lock s.row
  | handle _ =>
    simp only [workerStep] at h
    split at h
    · next x hx =>
      simp only [unfencedWrite, hx] at hn
      cases h
      rw [row_runHandler, hn]
    · cases h
  | hook _ _ =>
    simp only [workerStep, Option.ite_none_right_eq_some] at h
    cases h.2
    rfl
  | commitHook _ =>
    simp only [unfencedWrite, Option.map_eq_none_iff] at hn
    simp [workerStep, hn] at h
  | finish _ =>
    simp only [workerStep] at h
    split at h
    · cases h
    · split at h
      · cases h
        exact status_leaveLock w.lock s.row
      · split at h
        · cases h; rfl
        · cases h
  | writeApplying _ | skipDestroy _ => cases hu <;> cases hn
  | submit _ _ | forceRelease | sweep _ | cancel _ | resetStuck _ | adminStatus _ | janitor _ =>
    cases h

theorem status_workerStep_of_unfencedWrite {status : ModuleStatus}
    (hn : unfencedWrite w e = some status) (h : workerStep s k w e = some t) :
    t.row.status = (ormWrite w.seen status s.row).status := by
  cases e with
  | handle _ =>
    simp only [workerStep] at h
    split at h
    · next x hx =>
      simp only [unfencedWrite, hx] at hn
      cases h
      rw [row_runHandler, hn]
    · cases h
  | skipDestroy _ =>
    cases hn
    simp only [workerStep, Option.ite_none_right_eq_some] at h
    cases h.2
    rfl
  | commitHook _ =>
    simp only [unfencedWrite, Option.map_eq_some_iff] at hn
    obtain ⟨⟨_, types⟩, hd, rfl⟩ := hn
    simp only [workerStep, hd] at h
    cases h
    rfl
  | _ => cases hn

/-- An under-lock write is made with the worker's lock and leaves the status that
`transition_module_status` leaves. -/
theorem status_workerStep_of_underLockWrite {target : ModuleStatus}
    {extra : List (String × ColumnValue)} (hu : underLockWrite w e = some (target, extra))
    (h : workerStep s k w e = some t) :
    ∃ l, w.lock = some l ∧ t.row.status =
      (transitionModuleStatus (w.reads s.row) target (some l) extra s.row).1.status := by
  cases e with
  | write _ x extra =>
    simp only [underLockWrite, Option.map_eq_some_iff] at hu
    obtain ⟨⟨_, more⟩, hf, hpair⟩ := hu
    cases hpair
    simp only [workerStep, hf] at h
    split at h
    · next l _ _ _ hl heq =>
      cases heq
      cases h
      exact ⟨l, hl, (row_fencedWrite s k _ l _ extra).1⟩
    · cases h
  | writeApplying _ =>
    cases hu
    simp only [workerStep] at h
    split at h
    · next l _ hl =>
      simp only [Option.ite_none_right_eq_some] at h
      cases h.2
      exact ⟨l, hl, (row_fencedWrite s k w l applying []).1⟩
    · cases h
  | _ => cases hu

theorem workerStep_of_shopStep (hk : e.actor = some k) (hst : shopStep s e = some t) :
    ∃ w, s.workers[k]? = some w ∧ workerStep s k w e = some t := by
  cases e with
  | submit _ _ | forceRelease | sweep _ | cancel _ | resetStuck _ | adminStatus _ | janitor _ =>
    cases hk
  | _ =>
    simp only [shopStep, hk] at hst
    exact Option.bind_eq_some_iff.mp hst

end Status

def plannedRow : ModuleRow := ⟨planned, ⟨1, none, none, 0, none, fun _ ↦ .null⟩⟩

end BnkForge.Module
