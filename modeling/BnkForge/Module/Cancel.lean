import BnkForge.Module.Worker

/-!
# Cancelled workers

`cancel_operation` revokes the Celery tasks of a module, force-releases the lock once the
container kill is confirmed and resets the status
(`backend/services/project_module_service.py:1236–1376`). The revocation is asynchronous, and
a forced release keeps the fence token (`backend/services/entity_lock.py:362`), so the
cancelled worker's own token stays current until somebody acquires the lock again.
-/

namespace BnkForge.Module

open ModuleStatus Lock Transition

def CancelKeeps (s : Shop) (e : ShopEvent) (t : Shop) : Prop :=
  ∀ k w, e.actor = some k → s.workers[k]? = some w → w.cancelled = true →
    (underLockWrite w e).isSome = true → t.row.status = s.row.status

def CancelRejected (s : Shop) (e : ShopEvent) : Prop :=
  ∀ k ∈ e.actor, ∀ w ∈ s.workers[k]?, w.cancelled = true → ∀ u ∈ underLockWrite w e,
    ∀ l ∈ w.lock, s.row.fence ≠ l.fenceToken ∨
      isLegalTransition (w.reads s.row) u.1 = false ∨ (w.reads s.row = u.1 ∧ u.2 = []) ∨
      s.row.status = u.1

instance (s : Shop) (e : ShopEvent) : Decidable (CancelRejected s e) :=
  inferInstanceAs (Decidable (∀ k ∈ e.actor, ∀ w ∈ s.workers[k]?, w.cancelled = true →
    ∀ u ∈ underLockWrite w e, ∀ l ∈ w.lock, s.row.fence ≠ l.fenceToken ∨
      isLegalTransition (w.reads s.row) u.1 = false ∨ (w.reads s.row = u.1 ∧ u.2 = []) ∨
      s.row.status = u.1))

/-- A step keeps the status in the sense of `CancelKeeps` exactly when `CancelRejected` holds
before it. -/
theorem cancelKeeps_step_iff {s t : Shop} {e : ShopEvent} (hst : shopStep s e = some t) :
    CancelKeeps s e t ↔ CancelRejected s e := by
  constructor
  · intro hkeep k hk w hw hc u hu l hl
    obtain ⟨w', hw', hst⟩ := workerStep_of_shopStep hk hst
    cases hw.symm.trans hw'
    obtain ⟨l', hl', hrow⟩ := status_workerStep_of_underLockWrite hu hst
    cases hl.symm.trans hl'
    have hstatus := hkeep k w hk hw hc (by rw [hu]; rfl)
    rw [hrow] at hstatus
    exact (status_transitionModuleStatus_eq_iff _ _ _ _ _).mp hstatus
  · intro hok k w hk hw hc hsome
    obtain ⟨w', hw', hst⟩ := workerStep_of_shopStep hk hst
    cases hw.symm.trans hw'
    obtain ⟨u, hu⟩ := Option.isSome_iff_exists.mp hsome
    obtain ⟨l, hl, hrow⟩ := status_workerStep_of_underLockWrite hu hst
    rw [hrow]
    exact (status_transitionModuleStatus_eq_iff _ _ _ _ _).mpr (hok k hk w hw hc u hu l hl)

/-- In every interleaving of cancellations with the workers on one row, no under-lock write of
a cancelled worker changes the status exactly when each of them is rejected or repeats the
status. -/
theorem cancelKeeps_iff {m : ModuleRow} {es : List ShopEvent} {s : Shop}
    (hrun : Run shopStep Free ⟨m, []⟩ es s) :
    AllSteps shopStep CancelKeeps ⟨m, []⟩ es ↔ Run shopStep CancelRejected ⟨m, []⟩ es s :=
  hrun.allSteps_iff trivial (fun _ _ _ _ _ ↦ trivial) fun _ _ _ _ hst ↦ cancelKeeps_step_iff hst

/-- An apply is running when it is cancelled, with the container kill confirmed. -/
def cancelledApply : List ShopEvent :=
  [.submit .apply applying, .load 0, .acquire 0 30 0, .forceRelease, .cancel applying]

/-- A new apply acquires the lock before the cancelled worker writes. -/
def reappliedFirst : List ShopEvent :=
  [.submit .apply applying, .load 1, .acquire 1 30 1000000,
    .write 0 .success [("deployment_error", .null)],
    .write 1 .success [("deployment_error", .null)]]

/-- The cancelled worker's write is rejected, the new one's is applied. -/
theorem cancelKeeps_reappliedFirst :
    ∃ s, exec shopStep ⟨plannedRow, []⟩ (cancelledApply ++ reappliedFirst) = some s ∧
      s.row.status = applied ∧
      AllSteps shopStep CancelKeeps ⟨plannedRow, []⟩ (cancelledApply ++ reappliedFirst) := by
  refine ⟨_, rfl, rfl, ?_⟩
  exact (cancelKeeps_iff (Run.free_iff_exec.mpr rfl)).mpr (Run.iff_exec.mpr rfl)

/-- The cancelled worker finishes its apply before the revocation reaches it: the module goes
from `planned`, where the cancellation put it, to `applied`. -/
theorem cancelled_write_applied :
    ¬ ∀ (m : ModuleRow) (es : List ShopEvent) (s : Shop),
      Run shopStep Free ⟨m, []⟩ es s → AllSteps shopStep CancelKeeps ⟨m, []⟩ es := by
  intro h
  have hall := h plannedRow (cancelledApply ++ [.write 0 .success [("deployment_error", .null)]]) _
    (Run.free_iff_exec.mpr rfl)
  have hcancelled : Run shopStep Free ⟨plannedRow, []⟩ cancelledApply _ :=
    Run.free_iff_exec.mpr rfl
  have hstatus := hcancelled.allSteps_last hall rfl 0 _ rfl rfl rfl rfl
  cases hstatus

end BnkForge.Module
