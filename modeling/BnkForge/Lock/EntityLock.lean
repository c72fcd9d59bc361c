import Mathlib.Data.List.Basic

/-!
# The heartbeat entity lock

`backend/services/entity_lock.py`. Every SQL statement is modelled by its effect on one
row of the locked table: the `WHERE` clause is the test and the `SET` clause the update.
A comparison with `NULL` is never true. Timestamps are integers in microseconds.
-/

namespace BnkForge.Lock

/-- `_ALLOWED_LOCK_TABLES`; `backend/services/entity_lock.py:36`. -/
inductive LockTable
  | projectModules
  | proxyDeployments
  | bnkUpgrades
  deriving DecidableEq, Repr

namespace LockTable

def name : LockTable → String
  | projectModules => "project_modules"
  | proxyDeployments => "proxy_deployments"
  | bnkUpgrades => "bnk_upgrades"

/-- `_ALLOWED_FIELDS_BY_TABLE`; `backend/services/entity_lock.py:47`. -/
def allowedFields : LockTable → List String
  | projectModules =>
    ["status", "outputs", "deployment_error", "stage_detail", "last_deployed_at",
      "workspace_path", "last_init_at", "plan_output", "plan_serial", "vars_hash"]
  | proxyDeployments =>
    ["status", "status_message", "proxy_url", "external_url", "helm_release", "helm_values",
      "deployed_at"]
  | bnkUpgrades =>
    ["status", "started_at", "completed_at", "current_step", "step_results", "error_message",
      "error_step", "duration_seconds", "pre_health", "post_health", "rollback_info",
      "rollback_available", "rollback_reason", "health_gate_passed"]

end LockTable

def lockColumns : List String :=
  ["id", "holding_task_id", "heartbeat_at", "lock_fence_token", "lock_acquired_at"]

/-- `RECLAIM_AFTER_SECONDS`; `backend/services/entity_lock.py:29`. -/
def reclaimAfterSeconds : Nat := 30

/-- `now - timedelta(seconds=reclaim)`. -/
def cutoff (reclaim : Nat) (now : Int) : Int := now - 1000000 * reclaim

/-- One row of a lockable table: the lock columns and every other column by name. -/
structure Row (V : Type) where
  id : Nat
  holdingTaskId : Option Nat
  heartbeatAt : Option Int
  lockFenceToken : Nat
  lockAcquiredAt : Option Int
  cols : String → V

/-- `EntityLock`, what a successful acquisition hands out; `entity_lock.py:120`. -/
structure EntityLock where
  entityId : Nat
  taskId : Nat
  fenceToken : Nat
  table : LockTable
  deriving DecidableEq, Repr

/-- The exceptions `set_locked_entity_fields` raises. -/
inductive WriteError
  | disallowedColumns (table : LockTable) (bad : List String)
  | lockLost (table : LockTable) (entityId fence : Nat)
  deriving DecidableEq, Repr

/-- The text of the raised exception. -/
def WriteError.message : WriteError → String
  | disallowedColumns table bad =>
    "set_locked_entity_fields called with disallowed columns for " ++ table.name ++ ": [" ++
      ", ".intercalate (bad.mergeSort.map fun c ↦ "'" ++ c ++ "'") ++ "]"
  | lockLost table entityId fence =>
    "Lock on " ++ table.name ++ "[" ++ toString entityId ++
      "] was reclaimed mid-operation (fence=" ++ toString fence ++
      "); under-lock write rejected."

variable {V : Type}

namespace Row

/-- `heartbeat_at < :cutoff` of the acquire and sweep statements. -/
def stale (reclaim : Nat) (now : Int) (r : Row V) : Bool :=
  match r.heartbeatAt with
  | none => false
  | some t => decide (t < cutoff reclaim now)

/-- The `WHERE` clause of `_sql_refresh` and `_sql_release`. -/
def heldBy (l : EntityLock) (r : Row V) : Bool :=
  r.id == l.entityId && r.holdingTaskId == some l.taskId && r.lockFenceToken == l.fenceToken

/-- The common `SET holding_task_id = NULL, heartbeat_at = NULL`. -/
def clear (r : Row V) : Row V := { r with holdingTaskId := none, heartbeatAt := none }

end Row

/-- `_try_acquire` (`entity_lock.py:285`): one `_sql_acquire` statement and its result. -/
def tryAcquire (table : LockTable) (reclaim : Nat) (entityId taskId : Nat) (now : Int)
    (r : Row V) : Row V × Option EntityLock :=
  if r.id = entityId ∧ (r.holdingTaskId = none ∨ r.stale reclaim now = true) then
    ({ r with
        holdingTaskId := some taskId
        heartbeatAt := some now
        lockFenceToken := r.lockFenceToken + 1
        lockAcquiredAt := some now },
      some ⟨entityId, taskId, r.lockFenceToken + 1, table⟩)
  else (r, none)

/-- `refresh` (`entity_lock.py:318`): `False` once this fence is no longer the holder. -/
def refresh (l : EntityLock) (now : Int) (r : Row V) : Row V × Bool :=
  if r.heldBy l then ({ r with heartbeatAt := some now }, true) else (r, false)

/-- `release` (`entity_lock.py:332`): a no-op unless this fence is the holder. -/
def release (l : EntityLock) (r : Row V) : Row V :=
  if r.heldBy l then r.clear else r

/-- `is_held` (`entity_lock.py:351`); the row is looked up by id and may be missing. -/
def isHeld (reclaim : Nat) (now : Int) (row : Option (Row V)) : Bool :=
  match row with
  | none => false
  | some r =>
    match r.holdingTaskId, r.heartbeatAt with
    | some _, some heartbeat => decide (cutoff reclaim now ≤ heartbeat)
    | _, _ => false

/-- `force_release` (`entity_lock.py:362`): clears any holder and keeps the fence token. -/
def forceRelease (r : Row V) : Row V × Bool :=
  if r.holdingTaskId.isSome then (r.clear, true) else (r, false)

/-- One row's part in `sweep_stale_entity_locks` (`entity_lock.py:581`). -/
def sweepStale (now : Int) (r : Row V) : Row V :=
  if r.holdingTaskId.isSome && r.stale reclaimAfterSeconds now then r.clear else r

/-- `SET k = :k, …` over the columns outside the lock. -/
def setColumns (fields : List (String × V)) (cols : String → V) : String → V := fun c ↦
  match fields.lookup c with
  | some v => v
  | none => cols c

def disallowed (table : LockTable) (fields : List (String × V)) : List String :=
  (fields.map Prod.fst).filter fun c ↦ !table.allowedFields.contains c

/-- `set_locked_entity_fields` (`entity_lock.py:516`): the fence-protected `UPDATE`. -/
def setLockedEntityFields (table : LockTable) (l : EntityLock) (fields : List (String × V))
    (r : Row V) : Row V × Except WriteError Unit :=
  if fields = [] then (r, .ok ())
  else if disallowed table fields ≠ [] then
    (r, .error (.disallowedColumns table (disallowed table fields)))
  else if r.lockFenceToken = l.fenceToken then
    ({ r with cols := setColumns fields r.cols }, .ok ())
  else (r, .error (.lockLost table r.id l.fenceToken))

/-! ### What each statement does to the lock columns -/

theorem tryAcquire_eq_some {table : LockTable} {reclaim entityId taskId : Nat} {now : Int}
    {r r' : Row V} {l : EntityLock}
    (h : tryAcquire table reclaim entityId taskId now r = (r', some l)) :
    r.id = entityId ∧ l = ⟨entityId, taskId, r.lockFenceToken + 1, table⟩ ∧
      r' = { r with
        holdingTaskId := some taskId
        heartbeatAt := some now
        lockFenceToken := r.lockFenceToken + 1
        lockAcquiredAt := some now } := by
  unfold tryAcquire at h
  split at h
  · next hc =>
    obtain ⟨h₁, h₂⟩ := Prod.mk.inj h
    exact ⟨hc.1, (Option.some.inj h₂).symm, h₁.symm⟩
  · next => simp at h

theorem tryAcquire_eq_none {table : LockTable} {reclaim entityId taskId : Nat} {now : Int}
    {r r' : Row V} (h : tryAcquire table reclaim entityId taskId now r = (r', none)) :
    r' = r := by
  unfold tryAcquire at h
  split at h
  · next => simp at h
  · next => exact (Prod.mk.inj h).1.symm

theorem tryAcquire_isSome_iff (table : LockTable) (reclaim taskId : Nat) (now : Int)
    (r : Row V) :
    (tryAcquire table reclaim r.id taskId now r).2.isSome = true ↔
      r.holdingTaskId = none ∨ r.stale reclaim now = true := by
  unfold tryAcquire
  split
  · next h => simpa using h.2
  · next h => simpa using h

theorem lockFenceToken_refresh (l : EntityLock) (now : Int) (r : Row V) :
    (refresh l now r).1.lockFenceToken = r.lockFenceToken := by
  unfold refresh
  split <;> rfl

theorem lockFenceToken_release (l : EntityLock) (r : Row V) :
    (release l r).lockFenceToken = r.lockFenceToken := by
  unfold release
  split <;> rfl

theorem lockFenceToken_forceRelease (r : Row V) :
    (forceRelease r).1.lockFenceToken = r.lockFenceToken := by
  unfold forceRelease
  split <;> rfl

theorem lockFenceToken_sweepStale (now : Int) (r : Row V) :
    (sweepStale now r).lockFenceToken = r.lockFenceToken := by
  unfold sweepStale
  split <;> rfl

theorem setLockedEntityFields_row (table : LockTable) (l : EntityLock)
    (fields : List (String × V)) (r : Row V) :
    ∃ cols, (setLockedEntityFields table l fields r).1 = { r with cols := cols } := by
  unfold setLockedEntityFields
  repeat' split
  all_goals exact ⟨_, rfl⟩

theorem setLockedEntityFields_of_allowed {table : LockTable} (l : EntityLock)
    {fields : List (String × V)} (hne : fields ≠ [])
    (hall : ∀ f ∈ fields, f.1 ∈ table.allowedFields) (r : Row V) :
    setLockedEntityFields table l fields r =
      if r.lockFenceToken = l.fenceToken then
        ({ r with cols := setColumns fields r.cols }, .ok ())
      else (r, .error (.lockLost table r.id l.fenceToken)) := by
  have hbad : disallowed table fields = [] := by
    simpa [disallowed, List.filter_eq_nil_iff] using fun c v hm ↦ hall (c, v) hm
  simp [setLockedEntityFields, hne, hbad]

end BnkForge.Lock
