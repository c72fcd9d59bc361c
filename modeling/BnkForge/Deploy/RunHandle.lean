import BnkForge.Deploy.Redeploy

/-!
# The handle of a deploy run

`deploy_project_parallel` draws one `run_handle` for the whole run and its first wave writes it
on every task row (`backend/services/parallel_execution_service.py:239–250`, `:583–701`). The
completion hooks copy the handle of the newest init or apply task of the completed module
(`backend/tasks/_tofu_helpers.py:140–169`, `:252–308`), and the auto-apply of `run_opentofu_init`
writes none (`backend/tasks/opentofu_tasks.py:293–313`). Tasks may fail, other tasks may be
submitted and other runs started at any time. A row is created when a session adds it and seen
by others once it is committed.
-/

namespace BnkForge.Deploy.Handle

open ModuleStatus Transition List

structure TaskRow where
  module : Nat
  type : TaskType
  runHandle : Option String
  /-- Pending, queued or in progress. -/
  active : Bool
  autoApply : Bool
  /-- The handle of the run that has created the row, directly or transitively. -/
  run : Option String
  deriving DecidableEq, Repr

structure RunProject (H : Type) extends Project H where
  stackOf : Nat → Option Nat

/-- The database and the workers. -/
structure State where
  statuses : Statuses
  /-- The committed rows by id. -/
  tasks : List TaskRow
  /-- Rows that a session has added and not committed. -/
  waves : List (List TaskRow)
  /-- Modules whose apply is committed and whose hook has not begun, with the run of the task. -/
  ended : List (Nat × Option String)
  /-- Modules whose init is committed and whose dependencies are not yet checked for the
  auto-apply, with the run of the task. -/
  autoApply : List (Nat × Option String)

variable {H : Type} [DecidableEq H] (P : RunProject H)

/-- The tasks that are pending, queued or in progress. -/
def activeTasks (s : State) : List Dispatch :=
  (s.tasks.filter TaskRow.active).map fun r ↦ (r.module, r.type)

def newestHandle (s : State) (x : Nat) : Option String :=
  (s.tasks.reverse.find? fun r ↦ r.module == x && (r.type == .init || r.type == .apply)).bind
    TaskRow.runHandle

/-- What `_trigger_next_stack_module` queues. -/
def stackDispatches (s : State) (completed : Nat) : List Dispatch :=
  (P.modules.filter fun m ↦ P.stackOf m.id == P.stackOf completed).filterMap fun m ↦
    match s.statuses m.id with
    | none => none
    | some status =>
      if m.enabled && !Stack.skipped status && m.dependencies.contains completed &&
          depsReady s.statuses m && !(activeTasks s).any (·.1 == m.id) then
        some (m.id, if status = notInitialized then .init else .apply)
      else none

/-- What the hook of a completed apply queues; `chain` is `should_chain` for the module's
stack. -/
def hookDispatches (s : State) (completed : Nat) (chain : Bool) : List Dispatch :=
  if isApplied s.statuses completed then
    if P.stackOf completed = none then
      dispatchFirstWave P.toProject (activeTasks s) P.modules s.statuses
    else if chain then stackDispatches P s completed
    else []
  else []

def rowsOf (handle run : Option String) (wave : List Dispatch) : List TaskRow :=
  wave.map fun x ↦ ⟨x.1, x.2, handle, true, x.2 == .init, run⟩

/-! ### Steps -/

/-- What can happen next; `i` and `j` are positions. -/
inductive Event
  | deploy (handle : String)
  | commitRow (j : Nat)
  | finish (i : Nat) (success : Bool)
  | checkAutoApply (j : Nat) (m : ModuleSpec)
  | startHook (j : Nat) (chain : Bool)
  /-- A task outside of every run. -/
  | submit (row : TaskRow)
  /-- A status write outside of every run. -/
  | write (x : Nat) (status : ModuleStatus)
  deriving DecidableEq, Repr

def finishedStatus : TaskType → Bool → Option ModuleStatus
  | .init, true => some initialized
  | .init, false => some initFailed
  | .apply, true => some applied
  | .apply, false => some applyFailed
  | _, _ => none

/-- One event, `none` when it cannot happen. -/
def step (s : State) : Event → Option State
  | .deploy handle =>
    some { s with waves := s.waves ++ [rowsOf (some handle) (some handle)
      (dispatchFirstWave P.toProject (activeTasks s) P.modules s.statuses)] }
  | .commitRow j =>
    match s.waves[j]? with
    | some (r :: wave) =>
      some { s with
        statuses := setStatus s.statuses r.module (dispatchedStatus r.type)
        tasks := s.tasks ++ [r]
        waves := s.waves.set j wave }
    | _ => none
  | .finish i success =>
    match s.tasks[i]? with
    | some r =>
      if r.active then
        some { s with
          statuses := match finishedStatus r.type success with
            | some status => setStatus s.statuses r.module status
            | none => s.statuses
          tasks := s.tasks.set i { r with active := false }
          ended :=
            if r.type = .apply ∧ success = true then s.ended ++ [(r.module, r.run)] else s.ended
          autoApply :=
            if r.type = .init ∧ success = true ∧ r.autoApply = true then
              s.autoApply ++ [(r.module, r.run)]
            else s.autoApply }
      else none
    | none => none
  | .checkAutoApply j m =>
    match s.autoApply[j]? with
    | some (x, run) =>
      if m ∈ P.modules ∧ m.id = x then
        if canExecute P.toProject s.statuses m then
          some { s with
            statuses := setStatus s.statuses x applying
            tasks := s.tasks ++ [⟨x, .apply, none, true, false, run⟩]
            autoApply := s.autoApply.eraseIdx j }
        else some { s with autoApply := s.autoApply.eraseIdx j }
      else none
    | none => none
  | .startHook j chain =>
    match s.ended[j]? with
    | some (x, run) =>
      some { s with
        waves := s.waves ++ [rowsOf (newestHandle s x) run (hookDispatches P s x chain)]
        ended := s.ended.eraseIdx j }
    | none => none
  | .submit row => some { s with tasks := s.tasks ++ [{ row with run := none }] }
  | .write x status => some { s with statuses := setStatus s.statuses x status }

def start (st : Statuses) (past : List TaskRow) : State :=
  ⟨st, past.map fun r ↦ { r with run := none }, [], [], []⟩

def Stamped (r : TaskRow) : Prop := ∀ handle, r.run = some handle → r.runHandle = some handle

/-- Every row that a run has created carries its handle. -/
def Carries (s : State) : Prop := ∀ r ∈ s.tasks ++ s.waves.flatten, Stamped r

/-- The step passes the handle on: a run queues no auto-apply, and the hook of a task of a run
finds its handle on the newest init or apply task of the module, or has nothing to queue. -/
def Stamps (s : State) : Event → Prop
  | .checkAutoApply j m => ∀ x ∈ s.autoApply[j]?,
      x.2 = none ∨ canExecute P.toProject s.statuses m = false
  | .startHook j chain => ∀ x ∈ s.ended[j]?,
      x.2 = none ∨ newestHandle s x.1 = x.2 ∨ hookDispatches P s x.1 chain = []
  | _ => True

instance (s : State) : (e : Event) → Decidable (Stamps P s e)
  | .checkAutoApply j m => inferInstanceAs (Decidable (∀ x ∈ s.autoApply[j]?,
      x.2 = none ∨ canExecute P.toProject s.statuses m = false))
  | .startHook j chain => inferInstanceAs (Decidable (∀ x ∈ s.ended[j]?,
      x.2 = none ∨ newestHandle s x.1 = x.2 ∨ hookDispatches P s x.1 chain = []))
  | .deploy _ | .commitRow _ | .finish .. | .submit _ | .write .. =>
    inferInstanceAs (Decidable True)

/-! ### Rows -/

section Rows

variable {s t : State} {r : TaskRow} {handle run : Option String}

private theorem stamped_iff : Stamped r ↔ r.run = none ∨ r.runHandle = r.run := by
  unfold Stamped
  cases r.run with
  | none => simp
  | some handle => simp

private theorem stamped_rowsOf_iff (wave : List Dispatch) :
    (∀ r ∈ rowsOf handle run wave, Stamped r) ↔ run = none ∨ handle = run ∨ wave = [] := by
  simp only [rowsOf, forall_mem_map, stamped_iff]
  cases wave with
  | nil => simp
  | cons x wave =>
    constructor
    · intro h
      exact (h x mem_cons_self).imp_right Or.inl
    · rintro (h | h | h) _ _
      · exact Or.inl h
      · exact Or.inr h
      · cases h

private theorem carries_iff :
    Carries s ↔ (∀ r ∈ s.tasks, Stamped r) ∧ ∀ wave ∈ s.waves, ∀ r ∈ wave, Stamped r := by
  unfold Carries
  rw [forall_mem_append, forall_mem_flatten]

private theorem carries_addWave (h : Carries s) (wave : List TaskRow) (ended : List (Nat × Option String)) :
    Carries { s with waves := s.waves ++ [wave], ended } ↔ ∀ r ∈ wave, Stamped r := by
  rw [carries_iff] at h ⊢
  rw [forall_mem_append, forall_mem_singleton]
  exact ⟨fun hnew ↦ hnew.2.2, fun hwave ↦ ⟨h.1, h.2, hwave⟩⟩

private theorem carries_addTask (h : Carries s) (statuses : Statuses)
    (autoApply : List (Nat × Option String)) :
    Carries { s with tasks := s.tasks ++ [r], statuses, autoApply } ↔ Stamped r := by
  rw [carries_iff] at h ⊢
  rw [forall_mem_append, forall_mem_singleton]
  exact ⟨fun hnew ↦ hnew.1.2, fun hr ↦ ⟨⟨h.1, hr⟩, h.2⟩⟩

end Rows

/-! ### Runs -/

section Runs

variable {P} {s t : State} {e : Event}

private theorem carries_commitRow {j : Nat} (h : Carries s) (hst : step P s (.commitRow j) = some t) :
    Carries t := by
  simp only [step] at hst
  split at hst
  · next r wave hj =>
    cases hst
    rw [carries_iff] at h ⊢
    have hwave := h.2 _ (mem_of_getElem? hj)
    refine ⟨?_, fun w hw ↦ ?_⟩
    · rw [forall_mem_append, forall_mem_singleton]
      exact ⟨h.1, hwave r mem_cons_self⟩
    · rcases mem_or_eq_of_mem_set hw with hw | rfl
      · exact h.2 w hw
      · exact fun r hr ↦ hwave r (mem_cons_of_mem _ hr)
  · cases hst

private theorem carries_finish {i : Nat} {success : Bool} (h : Carries s)
    (hst : step P s (.finish i success) = some t) : Carries t := by
  simp only [step] at hst
  split at hst
  · next r hi =>
    obtain ⟨-, ⟨⟩⟩ := Option.ite_none_right_eq_some.mp hst
    rw [carries_iff] at h ⊢
    refine ⟨fun q hq ↦ ?_, h.2⟩
    rcases mem_or_eq_of_mem_set hq with hq | rfl
    · exact h.1 q hq
    · exact h.1 r (mem_of_getElem? hi)
  · cases hst

private theorem carries_checkAutoApply_iff {j : Nat} {m : ModuleSpec} (h : Carries s)
    (hst : step P s (.checkAutoApply j m) = some t) :
    Carries t ↔ Stamps P s (.checkAutoApply j m) := by
  simp only [step] at hst
  split at hst
  · next x run hj =>
    obtain ⟨-, hst⟩ := Option.ite_none_right_eq_some.mp hst
    have hstamps : Stamps P s (.checkAutoApply j m) ↔
        run = none ∨ canExecute P.toProject s.statuses m = false := by
      simp only [Stamps, hj, Option.mem_some, forall_eq']
    rw [hstamps]
    split at hst
    · next hcan =>
      cases hst
      rw [carries_addTask h, stamped_iff]
      -- the row of the auto-apply has no handle
      simp [hcan, eq_comm]
    · next hcan =>
      cases hst
      exact ⟨fun _ ↦ Or.inr (Bool.eq_false_iff.mpr hcan), fun _ ↦ h⟩
  · cases hst

private theorem carries_startHook_iff {j : Nat} {chain : Bool} (h : Carries s)
    (hst : step P s (.startHook j chain) = some t) :
    Carries t ↔ Stamps P s (.startHook j chain) := by
  simp only [step] at hst
  split at hst
  · next x run hj =>
    cases hst
    rw [carries_addWave h, stamped_rowsOf_iff]
    simp only [Stamps, hj, Option.mem_some, forall_eq']
  · cases hst

theorem carries_step_iff (h : Carries s) (hst : step P s e = some t) :
    Carries t ↔ Stamps P s e := by
  cases e with
  | deploy handle =>
    cases hst
    refine iff_of_true ((carries_addWave h _ _).mpr ?_) trivial
    exact (stamped_rowsOf_iff _).mpr (Or.inr (Or.inl rfl))
  | commitRow j => exact iff_of_true (carries_commitRow h hst) trivial
  | finish i success => exact iff_of_true (carries_finish h hst) trivial
  | checkAutoApply j m => exact carries_checkAutoApply_iff h hst
  | startHook j chain => exact carries_startHook_iff h hst
  | submit row =>
    cases hst
    exact iff_of_true ((carries_addTask h _ _).mpr nofun) trivial
  | write x status =>
    cases hst
    exact iff_of_true h trivial

theorem carries_start (st : Statuses) (past : List TaskRow) : Carries (start st past) := by
  rw [carries_iff]
  refine ⟨fun r hr ↦ ?_, nofun⟩
  obtain ⟨q, -, rfl⟩ := mem_map.mp hr
  exact nofun

end Runs

/-- The rows of the runs carry their handles throughout exactly in the histories all of whose
steps pass the handle on. -/
theorem deployRun_carriesHandle_iff {st : Statuses} {past : List TaskRow} {es : List Event}
    {t : State} (hrun : Run (step P) Free (start st past) es t) :
    Throughout (step P) Carries (start st past) es ↔
      Run (step P) (Stamps P) (start st past) es t :=
  hrun.throughout_iff (carries_start st past) fun _ _ _ ↦ carries_step_iff

/-! ### Two modules -/

/-- The module 1 on top of the module 0, in no stack. -/
def upstreamFirst : RunProject Nat where
  modules := [⟨0, true, []⟩, ⟨1, true, [0]⟩]
  ids_nodup := by decide
  acyclic := ⟨id, by decide⟩
  storedHash := fun _ ↦ none
  currentHash := fun _ _ ↦ 0
  outputsCaptured := fun _ ↦ true
  stackOf := fun _ ↦ none

/-- A run over two modules with plans, and a submitted plan in between. -/
def plannedRun : List Event :=
  [.deploy "a", .commitRow 0, .submit ⟨1, .plan, none, true, false, none⟩, .finish 0 true,
    .finish 1 true, .startHook 0 false, .commitRow 1]

theorem deployRun_carriesHandle_plannedRun :
    ∃ t, Run (step upstreamFirst) Free (start (fun _ ↦ some planned) []) plannedRun t ∧
      t.tasks.map TaskRow.runHandle = [some "a", none, some "a"] ∧
      Throughout (step upstreamFirst) Carries (start (fun _ ↦ some planned) []) plannedRun := by
  have hrun : ∃ t, Run (step upstreamFirst) Free (start (fun _ ↦ some planned) []) plannedRun t ∧
      Run (step upstreamFirst) (Stamps upstreamFirst) (start (fun _ ↦ some planned) []) plannedRun t ∧
      t.tasks.map TaskRow.runHandle = [some "a", none, some "a"] :=
    ⟨_, Run.free_iff_exec.mpr rfl, Run.iff_exec.mpr rfl, rfl⟩
  obtain ⟨t, hrun, hstamps, htasks⟩ := hrun
  exact ⟨t, hrun, htasks, (deployRun_carriesHandle_iff upstreamFirst hrun).mpr hstamps⟩

/-- A project with one new module: the auto-apply after its init has no handle. -/
theorem deployRun_drops_handle :
    ¬ ∀ (P : RunProject Nat) (st : Statuses) (past : List TaskRow) (es : List Event) (t : State),
      Run (step P) Free (start st past) es t → Throughout (step P) Carries (start st past) es := by
  intro h
  have hrun : ∃ t, Run (step upstreamFirst) Free (start (fun _ ↦ some notInitialized) [])
      [.deploy "a", .commitRow 0, .finish 0 true, .checkAutoApply 0 ⟨0, true, []⟩] t :=
    ⟨_, Run.free_iff_exec.mpr rfl⟩
  obtain ⟨t, hrun⟩ := hrun
  have hstamps := (hrun.throughout_iff (carries_start _ _) fun _ _ _ ↦ carries_step_iff).mp
    (h _ _ _ _ _ hrun)
  cases Run.iff_exec.mp hstamps

end BnkForge.Deploy.Handle
