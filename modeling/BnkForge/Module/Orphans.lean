import BnkForge.Module.Lifecycle

/-!
# Orphaned infrastructure

A module that may own infrastructure is safe while its status is outside
`NO_INFRA_STATUSES` and its row exists: then neither the first destroy wave of its project
skips it nor `destroy_stack` deletes its row. The steps that end this are listed by `Loses`;
the runs through safe states are exactly those without such a step.
-/

namespace BnkForge.Module

open ModuleStatus Transition

/-- Where an apply has been started since the last successful destroy, the status does not
say that nothing exists, and the row is there. -/
def Safe (s : ModuleLife) : Prop :=
  ownsInfra s.history = true → s.status.noInfra = false ∧ s.rowDeleted = false

/-! ### The steps that lose infrastructure -/

/-- The ways out of a task that write a status of `NO_INFRA_STATUSES`. -/
def exitClears (type : TaskType) (x : Exit) (seen : ModuleStatus) : Bool :=
  match type, x with
  | .init, .success => seen != initialized
  | .init, .engineFailed | .init, .softTimeLimit | .init, .exception => true
  | .plan, .success => seen != planned
  | .plan, .initFailed => seen != .initFailed
  | .plan, .engineFailed | .plan, .softTimeLimit | .plan, .exception => true
  | .apply, .initFailed => seen != .initFailed && isLegalTransition seen .initFailed
  | .apply, .planFailed => isLegalTransition seen .planFailed
  | .destroy, .success => isLegalTransition seen destroyed
  | _, _ => false

/-- A step that leaves infrastructure behind: an apply started while the status says that
nothing exists; and, while infrastructure may exist, an init or plan run that ends with a
status write, an apply run that fails in its init or plan, a destroy run that reports on an
older destroy, a cancel of an init, plan or apply, and a recovery of a stale init or plan,
of a stale destroy whose last task completed, or by a last task that was cancelled. -/
def Loses (s : ModuleLife) : LifeEvent → Prop
  | .startApply _ => s.status.noInfra = true ∨ s.rowDeleted = true
  | .cancelOperation _ =>
    ownsInfra s.history = true ∧
      (s.status = initializing ∨ s.status = planning ∨ s.status = applying)
  | .exit i x seen =>
    ownsInfra s.history = true ∧ (s.tasks[i]?.any fun t ↦ exitClears t.type x seen) = true
  | .updateStackProgress =>
    ownsInfra s.history = true ∧ s.stale = true ∧
      (s.lastTask = some .failed ∧ (s.status = initializing ∨ s.status = planning) ∨
        s.lastTask = some .completed ∧ s.status = destroying ∨
        s.lastTask ≠ none ∧ s.lastTask ≠ some .failed ∧ s.lastTask ≠ some .completed)
  | .destroyStack _ =>
    ownsInfra s.history = true ∧ s.stale = true ∧
      (s.status = initializing ∧ s.lastTask ≠ some .completed ∨
        s.status = planning ∧ s.lastTask ≠ some .completed ∨
        s.status = destroying ∧ s.lastTask = some .completed)
  | _ => False

instance (s : ModuleLife) (e : LifeEvent) : Decidable (Loses s e) :=
  match e with
  | .startApply _ => inferInstanceAs (Decidable (_ ∨ _))
  | .cancelOperation _ => inferInstanceAs (Decidable (_ ∧ _))
  | .exit _ _ _ => inferInstanceAs (Decidable (_ ∧ _))
  | .updateStackProgress => inferInstanceAs (Decidable (_ ∧ _ ∧ _))
  | .destroyStack _ => inferInstanceAs (Decidable (_ ∧ _ ∧ _))
  | .submitInit | .submitPlan | .submitApply | .deployModule | .submitDestroy | .startTask _
  | .runDestroy _ _ | .autoApply _ | .destroyProject _ => .isFalse id

/-- Only the listed ways out turn another status into one of `NO_INFRA_STATUSES`. -/
theorem noInfra_exitStatus (type : TaskType) (x : Exit) (seen : ModuleStatus)
    {status : ModuleStatus} (hs : status.noInfra = false) :
    (exitStatus type x seen status).noInfra = exitClears type x seen := by
  -- a way out writes a fixed status or leaves the row's
  cases type <;> cases x <;> cases seen <;> first | exact hs | rfl

private theorem safe_update_iff {s : ModuleLife} (hs : Safe s) (status : ModuleStatus)
    (tasks : List TaskRow) :
    Safe { s with status := status, tasks := tasks } ↔
      ¬ (ownsInfra s.history = true ∧ status.noInfra = true) := by
  constructor
  · rintro h ⟨howns, hno⟩
    rw [(h howns).1] at hno
    cases hno
  · intro h howns
    refine ⟨?_, (hs howns).2⟩
    by_contra hne
    rw [Bool.not_eq_false] at hne
    exact h ⟨howns, hne⟩

private theorem safe_dispatch {s : ModuleLife} (hs : Safe s) (type : TaskType)
    (autoApply : Bool) {status : ModuleStatus} (hstatus : status.noInfra = false) :
    Safe (dispatch s type autoApply status) := by
  refine (safe_update_iff hs status _).mpr ?_
  rw [hstatus]
  exact fun h ↦ nomatch h.2

private theorem onRow_eq_some {s t : ModuleLife} {result : Option ModuleLife}
    (h : onRow s result = some t) : s.rowDeleted = false ∧ result = some t := by
  unfold onRow at h
  split at h
  · cases h
  · next hrow => exact ⟨by simpa using hrow, h⟩

private theorem safe_deployModule {s t : ModuleLife} (hs : Safe s)
    (h : deployModule s = some t) : Safe t := by
  unfold deployModule at h
  split at h
  · cases h
  · split at h
    · cases h
      exact safe_dispatch hs .init true rfl
    · cases h
      split
      · exact safe_dispatch hs .apply false rfl
      · refine (safe_update_iff hs s.status _).mpr ?_
        rintro ⟨howns, hno⟩
        rw [(hs howns).1] at hno
        cases hno

private theorem safe_cancelOperation_iff {s t : ModuleLife} {dispatchable : Bool} (hs : Safe s)
    (h : cancelOperation s dispatchable = some t) :
    Safe t ↔ ¬ Loses s (.cancelOperation dispatchable) := by
  have ht : ∃ tasks, t = { s with status := resetModuleStatus s.status, tasks := tasks } := by
    unfold cancelOperation at h
    split at h
    · cases h
      exact ⟨_, rfl⟩
    · split at h
      · cases h
        exact ⟨_, rfl⟩
      · cases h
  obtain ⟨tasks, rfl⟩ := ht
  rw [safe_update_iff hs, noInfra_resetModuleStatus, Loses]
  apply not_congr
  apply and_congr_right
  intro howns
  rw [(hs howns).1]
  exact ⟨fun h ↦ h.resolve_left (by simp), Or.inr⟩

private theorem safe_startTask {s : ModuleLife} {i : Nat} {t : TaskRow} (hs : Safe s) :
    Safe (startTask s i t) := by
  unfold startTask
  split
  · next hskip =>
    rw [safe_update_iff hs]
    rintro ⟨howns, -⟩
    -- the skip reads a status that a safe module with infrastructure does not have
    have hno := (hs howns).1
    rw [noInfra_eq, hskip.2, Bool.or_true] at hno
    cases hno
  · exact hs

private theorem safe_updateStackProgress_iff {s : ModuleLife} (hs : Safe s) :
    Safe { s with status := if s.stale then recoverStale s.lastTask s.status else s.status } ↔
      ¬ Loses s .updateStackProgress := by
  rw [safe_update_iff hs, Loses]
  apply not_congr
  apply and_congr_right
  intro howns
  by_cases hstale : s.stale = true
  · have htrans : s.status.transitional = true := by
      rw [ModuleLife.stale, Bool.and_eq_true] at hstale
      exact hstale.1
    rw [if_pos hstale, noInfra_recoverStale htrans, and_iff_right hstale]
  · rw [if_neg hstale, (hs howns).1]
    exact ⟨nofun, fun h ↦ absurd h.1 hstale⟩

private theorem noInfra_recovered_iff {s : ModuleLife} (hs : s.status.noInfra = false) :
    s.recovered.noInfra = true ↔
      s.stale = true ∧ (s.status = initializing ∧ s.lastTask ≠ some .completed ∨
        s.status = planning ∧ s.lastTask ≠ some .completed ∨
        s.status = destroying ∧ s.lastTask = some .completed) := by
  unfold ModuleLife.recovered
  by_cases hstale : s.stale = true
  · have htrans : s.status.transitional = true := by
      rw [ModuleLife.stale, Bool.and_eq_true] at hstale
      exact hstale.1
    rw [if_pos hstale, noInfra_recoverForDestroy htrans, and_iff_right hstale]
  · rw [if_neg hstale, hs]
    exact ⟨nofun, fun h ↦ absurd h.1 hstale⟩

private theorem safe_destroyStack_iff {s : ModuleLife} {leaf : Bool} (hs : Safe s) :
    Safe (destroyStack s leaf) ↔ ¬ Loses s (.destroyStack leaf) := by
  by_cases howns : ownsInfra s.history = true
  · have hrec := noInfra_recovered_iff (hs howns).1
    rw [Loses, and_iff_right howns, ← hrec, ← stackDestroyDecision_eq_deleteRow_iff]
    unfold destroyStack
    split
    · next hdec =>
      simp [hdec, Safe, howns]
    · next hdec =>
      rw [hdec, safe_update_iff hs, ← stackDestroyDecision_eq_deleteRow_iff, hdec]
      simp
    · next hdec =>
      rw [hdec]
      refine ⟨fun _ ↦ nofun, fun _ ↦ ?_⟩
      split
      · exact safe_dispatch hs .destroy false rfl
      · rw [safe_update_iff hs, ← stackDestroyDecision_eq_deleteRow_iff, hdec]
        simp
  · have hhist : (destroyStack s leaf).history = s.history := by
      unfold destroyStack
      split
      · rfl
      · rfl
      · split <;> rfl
    refine ⟨fun _ h ↦ howns h.1, fun _ h ↦ ?_⟩
    rw [hhist] at h
    exact absurd h howns

private theorem onTask_eq_some {s t : ModuleLife} {i : Nat} {op : TaskRow → Option ModuleLife}
    (h : onTask s i op = some t) : ∃ task, s.tasks[i]? = some task ∧ op task = some t :=
  Option.bind_eq_some_iff.mp h

private theorem safe_startApply_iff {s : ModuleLife} {tasks : List TaskRow} (i : Nat) :
    Safe { s with history := .apply :: s.history, tasks := tasks } ↔ ¬ Loses s (.startApply i) := by
  rw [Loses, not_or, Bool.not_eq_true, Bool.not_eq_true]
  exact ⟨fun h ↦ h rfl, fun h _ ↦ h⟩

private theorem safe_runDestroy {s : ModuleLife} {tasks : List TaskRow} {ok : Bool}
    (hs : Safe s) : Safe { s with history := .destroy ok :: s.history, tasks := tasks } := by
  cases ok with
  | true => exact fun howns ↦ nomatch howns
  | false => exact hs

theorem safe_step_iff {s t : ModuleLife} {e : LifeEvent} (hs : Safe s)
    (h : lifeStep s e = some t) : Safe t ↔ ¬ Loses s e := by
  cases e with
  | submitInit | submitPlan | submitApply =>
    cases (onRow_eq_some h).2
    exact iff_of_true (safe_dispatch hs _ _ rfl) id
  | deployModule =>
    obtain ⟨-, h⟩ := onRow_eq_some h
    exact iff_of_true (safe_deployModule hs h) id
  | submitDestroy =>
    obtain ⟨-, h⟩ := onRow_eq_some h
    split at h
    · cases h
      exact iff_of_true (safe_dispatch hs _ _ rfl) id
    · cases h
  | cancelOperation dispatchable =>
    obtain ⟨-, h⟩ := onRow_eq_some h
    exact safe_cancelOperation_iff hs h
  | startTask i =>
    obtain ⟨-, h⟩ := onRow_eq_some h
    obtain ⟨task, -, h⟩ := onTask_eq_some h
    split at h
    · cases h
      exact iff_of_true (safe_startTask hs) id
    · cases h
  | startApply i =>
    obtain ⟨task, -, h⟩ := onTask_eq_some h
    split at h
    · cases h
      exact safe_startApply_iff i
    · cases h
  | runDestroy i ok =>
    obtain ⟨task, -, h⟩ := onTask_eq_some h
    split at h
    · cases h
      exact iff_of_true (safe_runDestroy hs) id
    · cases h
  | exit i x seen =>
    obtain ⟨-, h⟩ := onRow_eq_some h
    obtain ⟨task, htask, h⟩ := onTask_eq_some h
    split at h
    · cases h
      rw [safe_update_iff hs, Loses, htask]
      apply not_congr
      apply and_congr_right
      intro howns
      rw [noInfra_exitStatus _ _ _ (hs howns).1]
      rfl
    · cases h
  | autoApply i =>
    obtain ⟨-, h⟩ := onRow_eq_some h
    obtain ⟨task, -, h⟩ := onTask_eq_some h
    split at h
    · cases h
      have hended : Safe { s with tasks := s.tasks.set i { task with phase := .ended } } := hs
      exact iff_of_true (safe_dispatch hended .apply false rfl) id
    · cases h
  | updateStackProgress =>
    cases (onRow_eq_some h).2
    exact safe_updateStackProgress_iff hs
  | destroyStack leaf =>
    cases (onRow_eq_some h).2
    exact safe_destroyStack_iff hs
  | destroyProject leaf =>
    cases (onRow_eq_some h).2
    refine iff_of_true ?_ id
    unfold destroyProject
    split
    · exact hs
    · exact safe_dispatch hs _ _ rfl

/-! ### Runs -/

/-- A run of a new module goes through safe states only exactly when none of its steps is a
losing one. -/
theorem noOrphans_iff (es : List LifeEvent) (t : ModuleLife)
    (hrun : Run lifeStep Free ModuleLife.fresh es t) :
    Throughout lifeStep Safe ModuleLife.fresh es ↔
      Run lifeStep (fun s e ↦ ¬ Loses s e) ModuleLife.fresh es t := by
  refine hrun.throughout_iff ?_ fun a e b ha hab ↦ safe_step_iff ha hab
  intro howns
  cases howns

def deployThenDestroy : List LifeEvent :=
  [.deployModule, .startTask 0, .exit 0 .success initializing, .autoApply 0, .startTask 1,
    .startApply 1, .exit 1 .success applying, .submitDestroy, .startTask 2, .runDestroy 2 true,
    .exit 2 .success destroying]

def planThenDestroyStack : List LifeEvent :=
  [.deployModule, .startTask 0, .exit 0 .success initializing, .autoApply 0, .startTask 1,
    .startApply 1, .exit 1 .success applying, .submitPlan, .startTask 2,
    .exit 2 .success planning, .destroyStack true]

/-- The module is safe from its deploy to its destroy. -/
theorem noOrphans_deployThenDestroy :
    ∃ t, exec lifeStep ModuleLife.fresh deployThenDestroy = some t ∧
      t.status = destroyed ∧ Throughout lifeStep Safe ModuleLife.fresh deployThenDestroy := by
  refine ⟨_, rfl, rfl, ?_⟩
  exact (noOrphans_iff deployThenDestroy _ (Run.free_iff_exec.mpr rfl)).mpr
    (Run.iff_exec.mpr rfl)

/-- A plan of an applied module sets `planned`, and `destroy_stack` then deletes its row
without a destroy. -/
theorem planned_module_orphaned :
    ¬ ∀ (es : List LifeEvent) (t : ModuleLife),
      exec lifeStep ModuleLife.fresh es = some t → Safe t := by
  intro h
  have hsafe := h planThenDestroyStack _ rfl rfl
  cases hsafe.2

end BnkForge.Module
