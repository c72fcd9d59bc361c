import BnkForge.Lock.EntityLock
import BnkForge.Models.Status

/-!
# The module state machine

`backend/services/module_state.py:65–222` and the status routing of
`backend/services/module_lock.py:129`. A typed `project_modules` row carries its status
beside the lock columns; `toRow` sends it to the untyped row of the entity lock, and the
fenced status write is proved to be that row's `set_locked_entity_fields`.
The audit rows of `module_state_transitions` are not modelled.
-/

namespace BnkForge.Module

open ModuleStatus Lock

/-! ### Transition graph -/

/-- `_INIT_OUTCOMES`. -/
def initOutcomes : List ModuleStatus := [initializing, initialized, initFailed]

/-- `_PLAN_OUTCOMES`. -/
def planOutcomes : List ModuleStatus := [planning, planned, planFailed]

/-- `_APPLY_OUTCOMES`. -/
def applyOutcomes : List ModuleStatus := [applying, applied, applyFailed]

/-- `_DESTROY_OUTCOMES`. -/
def destroyOutcomes : List ModuleStatus := [destroying, destroyed, destroyFailed]

/-- `_ADMIN_RESET`. -/
def adminReset : List ModuleStatus := [notInitialized]

/-- `_NO_OP_DESTROY`. -/
def noOpDestroy : List ModuleStatus := [destroyed]

/-- `ALLOWED_TRANSITIONS`; `backend/services/module_state.py:80`. -/
def allowedTransitions : ModuleStatus → List ModuleStatus
  | notInitialized => initOutcomes ++ noOpDestroy
  | initializing => [initialized, initFailed, notInitialized]
  | planning => [planned, planFailed, initFailed, initialized]
  | applying => [applied, applyFailed, initFailed, planFailed, planned]
  | destroying => [destroyed, destroyFailed, applied]
  | initialized =>
    initOutcomes ++ planOutcomes ++ applyOutcomes ++ destroyOutcomes ++ noOpDestroy ++ adminReset
  | planned => planOutcomes ++ applyOutcomes ++ destroyOutcomes ++ noOpDestroy ++ adminReset
  | applied => planOutcomes ++ applyOutcomes ++ destroyOutcomes ++ adminReset
  | destroyed => initOutcomes ++ adminReset
  | initFailed => initOutcomes ++ planOutcomes ++ applyOutcomes ++ noOpDestroy ++ adminReset
  | planFailed => initOutcomes ++ planOutcomes ++ applyOutcomes ++ noOpDestroy ++ adminReset
  | applyFailed => initOutcomes ++ planOutcomes ++ applyOutcomes ++ destroyOutcomes ++ adminReset
  | destroyFailed => destroyOutcomes ++ adminReset
  | failed => initOutcomes ++ adminReset

/-- `is_legal_transition`; `backend/services/module_state.py:140`. -/
def isLegalTransition (fromStatus toStatus : ModuleStatus) : Bool :=
  fromStatus == toStatus || (allowedTransitions fromStatus).contains toStatus

/-! ### Typed rows -/

inductive ColumnValue
  | status (s : ModuleStatus)
  | data (text : String)
  | null
  deriving DecidableEq, Repr

/-- A `project_modules` row: its status, and the lock columns with the other columns. -/
structure ModuleRow where
  status : ModuleStatus
  base : Row ColumnValue

/-- The untyped row that the entity lock sees. -/
def ModuleRow.toRow (m : ModuleRow) : Row ColumnValue :=
  { m.base with cols := fun c ↦ if c = "status" then .status m.status else m.base.cols c }

def ModuleRow.fence (m : ModuleRow) : Nat := m.base.lockFenceToken

/-- The fence-protected `UPDATE project_modules SET status = :status` with further columns. -/
def setLockedStatus (l : EntityLock) (toStatus : ModuleStatus)
    (extra : List (String × ColumnValue)) (m : ModuleRow) : ModuleRow × Except WriteError Unit :=
  if m.fence = l.fenceToken then
    (⟨toStatus, { m.base with cols := setColumns extra m.base.cols }⟩, .ok ())
  else (m, .error (.lockLost .projectModules m.base.id l.fenceToken))

theorem toRow_setLockedStatus (l : EntityLock) (toStatus : ModuleStatus)
    {extra : List (String × ColumnValue)}
    (hall : ∀ f ∈ extra, f.1 ∈ LockTable.projectModules.allowedFields) (m : ModuleRow) :
    ((setLockedStatus l toStatus extra m).1.toRow, (setLockedStatus l toStatus extra m).2) =
      setLockedEntityFields .projectModules l (("status", .status toStatus) :: extra) m.toRow := by
  have hmem : ∀ f ∈ ("status", ColumnValue.status toStatus) :: extra,
      f.1 ∈ LockTable.projectModules.allowedFields := by
    intro f hf
    rcases List.mem_cons.mp hf with rfl | hf
    · simp [LockTable.allowedFields]
    · exact hall f hf
  rw [setLockedEntityFields_of_allowed l (by simp) hmem]
  unfold setLockedStatus ModuleRow.fence
  by_cases h : m.base.lockFenceToken = l.fenceToken
  · have ht : m.toRow.lockFenceToken = l.fenceToken := h
    rw [if_pos h, if_pos ht]
    congr 1
    simp only [ModuleRow.toRow, Row.mk.injEq, true_and]
    funext c
    by_cases hc : c = "status"
    · simp [hc, setColumns]
    · have hb : (c == "status") = false := by simpa using hc
      simp [hc, setColumns, List.lookup_cons, hb]
  · have ht : m.toRow.lockFenceToken ≠ l.fenceToken := h
    rw [if_neg h, if_neg ht]
    rfl

/-- What `transition_module_status` raises. -/
inductive TransitionError
  | illegal (moduleId : Nat) (fromStatus toStatus : ModuleStatus)
  | lockLost (error : WriteError)
  deriving DecidableEq, Repr

/-- `transition_module_status` (`backend/services/module_state.py:156`). `seen` is
`module.status` as the caller's session has it loaded, which may be older than the row. -/
def transitionModuleStatus (seen toStatus : ModuleStatus) (lock : Option EntityLock)
    (extra : List (String × ColumnValue)) (m : ModuleRow) :
    ModuleRow × Except TransitionError Unit :=
  if isLegalTransition seen toStatus then
    if seen = toStatus ∧ extra = [] then (m, .ok ())
    else
      match lock with
      | some l =>
        match setLockedStatus l toStatus extra m with
        | (m', .ok ()) => (m', .ok ())
        | (m', .error e) => (m', .error (.lockLost e))
      | none => ({ m with status := toStatus }, .ok ())
  else (m, .error (.illegal m.base.id seen toStatus))

theorem setLockedStatus_of_fence {l : EntityLock} {m : ModuleRow} (h : m.fence = l.fenceToken)
    (toStatus : ModuleStatus) (extra : List (String × ColumnValue)) :
    setLockedStatus l toStatus extra m =
      (⟨toStatus, { m.base with cols := setColumns extra m.base.cols }⟩, .ok ()) :=
  if_pos h

theorem setLockedStatus_of_ne {l : EntityLock} {m : ModuleRow} (h : m.fence ≠ l.fenceToken)
    (toStatus : ModuleStatus) (extra : List (String × ColumnValue)) :
    setLockedStatus l toStatus extra m =
      (m, .error (.lockLost .projectModules m.base.id l.fenceToken)) :=
  if_neg h

theorem transitionModuleStatus_illegal {seen toStatus : ModuleStatus}
    (h : isLegalTransition seen toStatus = false) (lock : Option EntityLock)
    (extra : List (String × ColumnValue)) (m : ModuleRow) :
    transitionModuleStatus seen toStatus lock extra m =
      (m, .error (.illegal m.base.id seen toStatus)) := by
  simp [transitionModuleStatus, h]

theorem transitionModuleStatus_superseded {seen toStatus : ModuleStatus} {l : EntityLock}
    {m : ModuleRow} (h : m.fence ≠ l.fenceToken) (extra : List (String × ColumnValue)) :
    (transitionModuleStatus seen toStatus (some l) extra m).1 = m := by
  unfold transitionModuleStatus
  simp only [setLockedStatus_of_ne h]
  split
  · split <;> rfl
  · rfl

theorem transitionModuleStatus_applied {seen toStatus : ModuleStatus} {l : EntityLock}
    {m : ModuleRow} (hlegal : isLegalTransition seen toStatus = true)
    (hf : m.fence = l.fenceToken) {extra : List (String × ColumnValue)}
    (hne : ¬ (seen = toStatus ∧ extra = [])) :
    transitionModuleStatus seen toStatus (some l) extra m =
      (⟨toStatus, { m.base with cols := setColumns extra m.base.cols }⟩, .ok ()) := by
  simp only [transitionModuleStatus, hlegal, if_true, if_neg hne, setLockedStatus_of_fence hf]

theorem status_transitionModuleStatus_eq_iff (seen toStatus : ModuleStatus) (l : EntityLock)
    (extra : List (String × ColumnValue)) (m : ModuleRow) :
    (transitionModuleStatus seen toStatus (some l) extra m).1.status = m.status ↔
      m.fence ≠ l.fenceToken ∨ isLegalTransition seen toStatus = false ∨
        (seen = toStatus ∧ extra = []) ∨ m.status = toStatus := by
  by_cases hf : m.fence = l.fenceToken
  · cases hlegal : isLegalTransition seen toStatus with
    | false => simp [transitionModuleStatus_illegal hlegal]
    | true =>
      by_cases hne : seen = toStatus ∧ extra = []
      · simp only [transitionModuleStatus, hlegal, if_true, if_pos hne]
        exact iff_of_true trivial (Or.inr (Or.inr (Or.inl hne)))
      · rw [transitionModuleStatus_applied hlegal hf hne]
        simp [hf, hne, eq_comm]
  · simp [transitionModuleStatus_superseded hf, hf]

theorem status_transitionModuleStatus_cases (seen toStatus : ModuleStatus) (l : EntityLock)
    (extra : List (String × ColumnValue)) (m : ModuleRow) :
    (transitionModuleStatus seen toStatus (some l) extra m).1.status = m.status ∨
      (transitionModuleStatus seen toStatus (some l) extra m).1.status = toStatus := by
  by_cases hf : m.fence = l.fenceToken
  · unfold transitionModuleStatus
    simp only [setLockedStatus_of_fence hf]
    split
    · split
      · exact Or.inl rfl
      · exact Or.inr rfl
    · exact Or.inl rfl
  · rw [transitionModuleStatus_superseded hf]
    exact Or.inl rfl

theorem fence_transitionModuleStatus (seen toStatus : ModuleStatus) (lock : Option EntityLock)
    (extra : List (String × ColumnValue)) (m : ModuleRow) :
    (transitionModuleStatus seen toStatus lock extra m).1.fence = m.fence := by
  unfold transitionModuleStatus
  split
  · split
    · rfl
    · cases lock with
      | none => rfl
      | some l =>
        by_cases hf : m.fence = l.fenceToken
        · simp only [setLockedStatus_of_fence hf]
          rfl
        · simp only [setLockedStatus_of_ne hf]
  · rfl

end BnkForge.Module
