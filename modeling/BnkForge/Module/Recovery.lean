import BnkForge.Module.Outcomes

/-!
# What a stale module is recovered to

`update_stack_progress` and `destroy_stack` take a module that is in an in-progress status
without an active task to the status that its newest task suggests (BUG-009 and BUG-008;
`backend/services/stack_deployment_service.py:1404–1456`, `:1586–1648`). They look at the status
of that task and at the module's own status, never at the type of the task nor at older tasks.
-/

namespace BnkForge.Module

open ModuleStatus

structure TaskRecord where
  type : TaskType
  status : TaskStatus
  deriving DecidableEq, Repr

def TaskRecord.live (t : TaskRecord) : Bool :=
  t.status == .pending || t.status == .queued || t.status == .inProgress

/-- The recovery of one module with the tasks `history`, by id. -/
def recoverModule (recover : Option TaskStatus → ModuleStatus → ModuleStatus)
    (history : List TaskRecord) (s : ModuleStatus) : ModuleStatus :=
  if s.transitional && !history.any TaskRecord.live then
    recover (history.getLast?.map TaskRecord.status) s
  else s

/-- The recovery in `update_stack_progress`. -/
def progressRecovery : List TaskRecord → ModuleStatus → ModuleStatus := recoverModule recoverStale

/-- The recovery in `destroy_stack`. -/
def destroyRecovery : List TaskRecord → ModuleStatus → ModuleStatus :=
  recoverModule recoverForDestroy

/-! ### What the tasks say -/

def newestCompleted (history : List TaskRecord) : Option TaskRecord :=
  history.reverse.find? fun t ↦ t.status == .completed

/-- No apply has ever been asked for. -/
def NeverApplied (history : List TaskRecord) : Prop := ∀ t ∈ history, t.type ≠ .apply

/-- A status that says that nothing exists is backed by a completed destroy or by the absence of
applies, and the status `applied` by an apply that completed last. -/
structure Backed (history : List TaskRecord) (s : ModuleStatus) : Prop where
  noInfra : s.noInfra = true →
    history.getLast? = some ⟨.destroy, .completed⟩ ∨ NeverApplied history
  applied : s = applied → (newestCompleted history).map TaskRecord.type = some .apply

/-- The newest task tells how far the module got: a completed task is of the kind that the
status is about, and where any other one is taken to have changed nothing there is nothing. -/
def Telling (history : List TaskRecord) (s : ModuleStatus) (t : TaskRecord) : Prop :=
  if t.status = .completed then
    if s = destroying then t.type = .destroy ∨ NeverApplied history else t.type = .apply
  else s = initializing ∨ s = planning → NeverApplied history

section

variable {history : List TaskRecord} {s a : ModuleStatus} {t : TaskRecord}

private theorem newestCompleted_of_getLast? (hlast : history.getLast? = some t)
    (ht : t.status = .completed) : newestCompleted history = some t := by
  obtain ⟨older, rfl⟩ := List.getLast?_eq_some_iff.mp hlast
  simp [newestCompleted, ht]

private theorem status_of_getLast? (hlast : history.getLast? = some t)
    (hlive : history.any TaskRecord.live = false) :
    t.status = .completed ∨ t.status = .failed ∨ t.status = .cancelled := by
  have ht : t.live = false := by
    simpa using List.any_eq_false.mp hlive t (List.mem_of_getLast? hlast)
  unfold TaskRecord.live at ht
  cases hstatus : t.status <;> simp [hstatus] at ht ⊢

private theorem backed_iff_of_noInfra (ha : a.noInfra = true) :
    Backed history a ↔
      history.getLast? = some ⟨.destroy, .completed⟩ ∨ NeverApplied history := by
  constructor
  · intro h
    exact h.noInfra ha
  · intro h
    refine ⟨fun _ ↦ h, ?_⟩
    rintro rfl
    cases ha

private theorem backed_of_infra (ha : a.noInfra = false) (hne : a ≠ applied) : Backed history a :=
  ⟨fun h ↦ absurd (ha.symm.trans h) Bool.false_ne_true, fun h ↦ absurd h hne⟩

private theorem backed_applied_iff :
    Backed history applied ↔ (newestCompleted history).map TaskRecord.type = some .apply :=
  ⟨fun h ↦ h.applied rfl, fun h ↦ ⟨nofun, fun _ ↦ h⟩⟩

private theorem telling_iff_of_incomplete (ht : t.status ≠ .completed) :
    Telling history s t ↔ (s = initializing ∨ s = planning → NeverApplied history) := by
  rw [Telling, if_neg ht]

private theorem backed_completedOf_iff (hlast : history.getLast? = some t)
    (ht : t.status = .completed) : Backed history (completedOf s) ↔ Telling history s t := by
  rw [Telling, if_pos ht]
  by_cases hs : s = destroying
  · subst hs
    rw [if_pos rfl, completedOf, backed_iff_of_noInfra rfl, hlast, Option.some_inj]
    have heq : t = ⟨.destroy, .completed⟩ ↔ t.type = .destroy := by
      constructor
      · rintro rfl
        rfl
      · intro htype
        cases t
        cases ht
        cases htype
        rfl
    rw [heq]
  · have hcompleted : completedOf s = applied := by
      cases s with
      | destroying => exact absurd rfl hs
      | _ => rfl
    rw [if_neg hs, hcompleted, backed_applied_iff, newestCompleted_of_getLast? hlast ht,
      Option.map_some, Option.some_inj]

/-- After a task that did not complete, `*_failed` says that nothing exists for an init and a
plan. -/
private theorem backed_failedOf_iff (hs : s.transitional = true)
    (hlast : history.getLast? = some t) (ht : t.status ≠ .completed) :
    Backed history (failedOf s) ↔ Telling history s t := by
  have hnot : history.getLast? ≠ some ⟨.destroy, .completed⟩ := by
    rw [hlast]
    rintro ⟨⟩
    exact ht rfl
  rw [telling_iff_of_incomplete ht]
  cases s with
  | initializing | planning =>
    rw [failedOf, backed_iff_of_noInfra rfl]
    simp [hnot]
  | applying | destroying => exact iff_of_true (backed_of_infra rfl (by decide)) (by simp)
  | _ => cases hs

private theorem backed_notInitialized_iff (hlast : history.getLast? = some t)
    (ht : t.status ≠ .completed) : Backed history notInitialized ↔ NeverApplied history := by
  rw [backed_iff_of_noInfra rfl, or_iff_right]
  rw [hlast]
  rintro ⟨⟩
  exact ht rfl

private theorem neverApplied_nil : NeverApplied [] := nofun

private theorem backed_progressRecovery_iff (hs : s.transitional = true)
    (hlive : history.any TaskRecord.live = false) :
    Backed history (progressRecovery history s) ↔
      ∀ t ∈ history.getLast?,
        if t.status = .cancelled then NeverApplied history else Telling history s t := by
  rw [progressRecovery, recoverModule, hs, hlive, Bool.not_false, Bool.and_self, if_pos rfl]
  cases hlast : history.getLast? with
  | none =>
    cases s with
    | initializing | planning | applying | destroying =>
      exact iff_of_true (backed_of_infra rfl (by decide)) nofun
    | _ => cases hs
  | some t =>
    simp only [Option.map_some, Option.mem_some, forall_eq']
    rcases status_of_getLast? hlast hlive with ht | ht | ht
    · rw [if_neg (by rw [ht]; decide), ht, recoverStale]
      exact backed_completedOf_iff hlast ht
    · rw [if_neg (by rw [ht]; decide), ht, recoverStale]
      exact backed_failedOf_iff hs hlast (by rw [ht]; decide)
    · rw [if_pos ht, ht]
      exact backed_notInitialized_iff hlast (by rw [ht]; decide)

private theorem backed_destroyRecovery_iff (hs : s.transitional = true)
    (hlive : history.any TaskRecord.live = false) :
    Backed history (destroyRecovery history s) ↔
      ∀ t ∈ history.getLast?, Telling history s t := by
  rw [destroyRecovery, recoverModule, hs, hlive, Bool.not_false, Bool.and_self, if_pos rfl]
  cases hlast : history.getLast? with
  | none =>
    refine iff_of_true ?_ nofun
    rw [List.getLast?_eq_none_iff.mp hlast]
    refine ⟨fun _ ↦ Or.inr neverApplied_nil, fun happlied ↦ ?_⟩
    cases s with
    | initializing | planning | applying | destroying => cases happlied
    | _ => cases hs
  | some t =>
    simp only [Option.map_some, Option.mem_some, forall_eq']
    rcases status_of_getLast? hlast hlive with ht | ht | ht
    · rw [ht, recoverForDestroy]
      exact backed_completedOf_iff hlast ht
    · rw [ht, recoverForDestroy]
      exact backed_failedOf_iff hs hlast (by rw [ht]; decide)
    · have hne : t.status ≠ .completed := by rw [ht]; decide
      rw [ht]
      show Backed history (if s = applying ∨ s = destroying then failedOf s else notInitialized) ↔ _
      split
      · exact backed_failedOf_iff hs hlast hne
      · next hidle =>
        rw [backed_notInitialized_iff hlast hne, telling_iff_of_incomplete hne]
        have : s = initializing ∨ s = planning := by
          cases s <;> simp_all [transitional]
        simp [this]

end

/-- For a module in an in-progress status without a live task, the two recoveries keep to what
its tasks say exactly where the newest task tells: in both a completed task is of the kind that
the status is about, and where an init or a plan did not complete there has been no apply. The
recovery in `update_stack_progress` also needs that there has been none where the newest task
was cancelled. -/
theorem recovery_backed_iff (history : List TaskRecord) (s : ModuleStatus)
    (hs : s.transitional = true) (hlive : history.any TaskRecord.live = false) :
    (Backed history (progressRecovery history s) ↔
      ∀ t ∈ history.getLast?,
        if t.status = .cancelled then NeverApplied history else Telling history s t) ∧
    (Backed history (destroyRecovery history s) ↔
      ∀ t ∈ history.getLast?, Telling history s t) :=
  ⟨backed_progressRecovery_iff hs hlive, backed_destroyRecovery_iff hs hlive⟩

/-- An apply that failed half way. -/
theorem recovery_backed_failedApply :
    ModuleStatus.transitional applying = true ∧
      Backed [⟨.init, .completed⟩, ⟨.apply, .failed⟩]
        (progressRecovery [⟨.init, .completed⟩, ⟨.apply, .failed⟩] applying) ∧
      Backed [⟨.init, .completed⟩, ⟨.apply, .failed⟩]
        (destroyRecovery [⟨.init, .completed⟩, ⟨.apply, .failed⟩] applying) := by
  have h := recovery_backed_iff [⟨.init, .completed⟩, ⟨.apply, .failed⟩] applying rfl rfl
  refine ⟨rfl, h.1.mpr ?_, h.2.mpr ?_⟩
  · rintro t ⟨⟩
    simp [Telling]
  · rintro t ⟨⟩
    simp [Telling]

/-- An apply that was cancelled half way is reset by `update_stack_progress`, and an applied
module whose new plan failed counts as never applied for `destroy_stack`. -/
theorem recovery_forgets :
    (¬ ∀ history s, ModuleStatus.transitional s = true → history.any TaskRecord.live = false →
      Backed history (progressRecovery history s)) ∧
    ¬ ∀ history s, ModuleStatus.transitional s = true → history.any TaskRecord.live = false →
      Backed history (destroyRecovery history s) := by
  constructor
  · intro h
    have := (h [⟨.apply, .cancelled⟩] applying rfl rfl).noInfra rfl
    exact absurd this (by unfold NeverApplied; decide)
  · intro h
    have := (h [⟨.apply, .completed⟩, ⟨.plan, .failed⟩] planning rfl rfl).noInfra rfl
    exact absurd this (by unfold NeverApplied; decide)

end BnkForge.Module
