import BnkForge.Lib.Transition
import BnkForge.Models.Status

/-!
# The deploy chain of a stackless project

`_dispatch_first_wave` (`backend/services/parallel_execution_service.py:583–701`), the
completion hook that runs it again (`backend/tasks/_tofu_helpers.py:81–169`) and the
auto-apply of `run_opentofu_init` (`backend/tasks/opentofu_tasks.py:293–325`), in runs all of
whose init and apply tasks succeed. A wave reads the database and commits its tasks later,
so waves of different workers may overlap. Stored hashes are constant: only
`run_opentofu_plan` refreshes them, and no plan task is part of a deploy run.
-/

namespace BnkForge.Deploy

open ModuleStatus List

/-- The columns of a project module that the dispatcher reads beside its status. -/
structure ModuleSpec where
  id : Nat
  enabled : Bool
  dependencies : List Nat
  deriving DecidableEq, Repr

/-- A stackless project: its modules by `deployment_order`, an acyclic dependency map among the
enabled ones, the stored `vars_hash` of each module, the hash of the variables assembled from
a set of applied modules, and which modules have captured outputs once applied. -/
structure Project (H : Type) where
  modules : List ModuleSpec
  ids_nodup : (modules.map ModuleSpec.id).Nodup
  acyclic : ∃ rank : Nat → Nat, ∀ m ∈ modules, m.enabled = true → ∀ d ∈ modules,
    d.enabled = true → d.id ∈ m.dependencies → rank d.id < rank m.id
  storedHash : Nat → Option H
  currentHash : Nat → (Nat → Bool) → H
  outputsCaptured : Nat → Bool

/-- The status column of every module row; `none` where there is no row. -/
abbrev Statuses := Nat → Option ModuleStatus

abbrev Dispatch := Nat × TaskType

instance : LawfulBEq Dispatch := inferInstance

variable {H : Type} [DecidableEq H] (P : Project H)

def isApplied (st : Statuses) (m : Nat) : Bool := st m == some applied

/-- `vars_changed`; `backend/services/workspace_manager.py:762`. -/
def varsChanged (st : Statuses) (m : Nat) : Bool :=
  match P.storedHash m with
  | none => false
  | some stored => P.currentHash m (isApplied st) != stored

/-- `deps_ready`. -/
def depsReady (st : Statuses) (m : ModuleSpec) : Bool := m.dependencies.all (isApplied st)

/-- `can_execute`; `backend/services/execution/variable_assembler.py:792`. -/
def canExecute (st : Statuses) (m : ModuleSpec) : Bool :=
  m.dependencies.all fun d ↦ isApplied st d && P.outputsCaptured d

/-- What the dispatcher queues for a module, if anything. -/
def dispatchOf (active : List Dispatch) (st : Statuses) (m : ModuleSpec) : Option TaskType :=
  if !m.enabled then none
  else if isApplied st m.id && !varsChanged P st m.id then none
  else if active.any (·.1 == m.id) then none
  else if !depsReady st m then none
  else if st m.id = some notInitialized then some .init
  else some .apply

def dispatchedStatus : TaskType → ModuleStatus
  | .init => initializing
  | _ => applying

def setStatus (st : Statuses) (m : Nat) (status : ModuleStatus) : Statuses :=
  Function.update st m (some status)

/-- `_dispatch_first_wave` over the modules in order; the statuses are those of the
session, in which the modules already dispatched have their new status. -/
def dispatchFirstWave (active : List Dispatch) : List ModuleSpec → Statuses → List Dispatch
  | [], _ => []
  | m :: ms, st =>
    match dispatchOf P active st m with
    | some type =>
      (m.id, type) :: dispatchFirstWave active ms (setStatus st m.id (dispatchedStatus type))
    | none => dispatchFirstWave active ms st

section Wave

variable {P} {active : List Dispatch} {st : Statuses} {m : ModuleSpec} {type : TaskType}

theorem of_dispatchOf (h : dispatchOf P active st m = some type) :
    m.enabled = true ∧ (isApplied st m.id = true → varsChanged P st m.id = true) ∧
      (∀ x ∈ active, x.1 ≠ m.id) ∧
      (type = .init ∧ st m.id = some notInitialized ∨ type = .apply) := by
  unfold dispatchOf at h
  split at h
  · cases h
  · next henabled =>
    split at h
    · cases h
    · next happlied =>
      split at h
      · cases h
      · next hactive =>
        split at h
        · cases h
        · refine ⟨by simpa using henabled, by simpa using happlied, ?_, ?_⟩
          · intro x hx heq
            exact hactive (any_eq_true.mpr ⟨x, hx, by simpa using heq⟩)
          · split at h
            · next hinit => exact Or.inl ⟨(Option.some.inj h).symm, hinit⟩
            · exact Or.inr (Option.some.inj h).symm

/-- A dispatched status is not `applied`. -/
theorem isApplied_setStatus_dispatched (type : TaskType) (k : Nat)
    (hm : isApplied st k = false) :
    isApplied (setStatus st k (dispatchedStatus type)) = isApplied st := by
  funext j
  by_cases hj : j = k
  · subst hj
    rw [hm, isApplied, setStatus, Function.update_self]
    cases type <;> rfl
  · rw [isApplied, setStatus, Function.update_of_ne hj, isApplied]

/-- Only the status `applied` makes a module applied. -/
theorem isApplied_of_setStatus {a : ModuleStatus} {k d : Nat} (ha : a ≠ applied)
    (h : isApplied (setStatus st k a) d = true) : isApplied st d = true := by
  by_cases hd : d = k
  · subst hd
    rw [isApplied, setStatus, Function.update_self] at h
    exact absurd (Option.some.inj (beq_iff_eq.mp h)) ha
  · rwa [isApplied, setStatus, Function.update_of_ne hd] at h

theorem dispatchedStatus_ne_applied (type : TaskType) : dispatchedStatus type ≠ applied := by
  cases type <;> decide

theorem map_fst_dispatchFirstWave_sublist (ms : List ModuleSpec) (st : Statuses) :
    ((dispatchFirstWave P active ms st).map Prod.fst).Sublist (ms.map ModuleSpec.id) := by
  induction ms generalizing st with
  | nil => exact List.Sublist.refl _
  | cons m ms ih =>
    rw [dispatchFirstWave]
    split
    · exact (ih _).cons_cons m.id
    · exact (ih _).cons m.id

theorem of_mem_dispatchFirstWave {ms : List ModuleSpec} {x : Dispatch}
    (hids : (ms.map ModuleSpec.id).Nodup) (hx : x ∈ dispatchFirstWave P active ms st) :
    x.1 ∈ ms.map ModuleSpec.id ∧ (∀ y ∈ active, y.1 ≠ x.1) ∧
      (x.2 = .init ∧ st x.1 = some notInitialized ∨ x.2 = .apply) := by
  induction ms generalizing st with
  | nil => cases hx
  | cons m ms ih =>
    obtain ⟨hhead, htail⟩ := nodup_cons.mp hids
    rw [dispatchFirstWave] at hx
    split at hx
    · next type hd =>
      obtain ⟨-, -, hactive, hinit⟩ := of_dispatchOf hd
      rcases mem_cons.mp hx with rfl | hx
      · exact ⟨mem_cons_self, hactive, hinit⟩
      · obtain ⟨hmem, hfree, hcase⟩ := ih htail hx
        refine ⟨mem_cons_of_mem _ hmem, hfree, ?_⟩
        have hne : x.1 ≠ m.id := by
          intro heq
          exact hhead (heq ▸ hmem)
        rwa [setStatus, Function.update_of_ne hne] at hcase
    · obtain ⟨hmem, hfree, hcase⟩ := ih htail hx
      exact ⟨mem_cons_of_mem _ hmem, hfree, hcase⟩

theorem not_isApplied_of_mem_dispatchFirstWave {ms : List ModuleSpec} {x : Dispatch}
    (hids : (ms.map ModuleSpec.id).Nodup)
    (hun : ∀ m ∈ ms, m.enabled = true → isApplied st m.id = true →
      varsChanged P st m.id = false)
    (hx : x ∈ dispatchFirstWave P active ms st) : isApplied st x.1 = false := by
  induction ms generalizing st with
  | nil => cases hx
  | cons m ms ih =>
    obtain ⟨-, htail⟩ := nodup_cons.mp hids
    have hunTail : ∀ m ∈ ms, m.enabled = true → isApplied st m.id = true →
        varsChanged P st m.id = false := fun k hk ↦ hun k (mem_cons_of_mem _ hk)
    rw [dispatchFirstWave] at hx
    split at hx
    · next type hd =>
      obtain ⟨henabled, hchanged, -, -⟩ := of_dispatchOf hd
      have hm : isApplied st m.id = false := by
        by_contra hne
        rw [Bool.not_eq_false] at hne
        have hfalse := hun m mem_cons_self henabled hne
        rw [hchanged hne] at hfalse
        cases hfalse
      rcases mem_cons.mp hx with rfl | hx
      · exact hm
      · -- the applied modules, hence the hashes, are those the wave started with
        have hsame := isApplied_setStatus_dispatched type m.id hm
        have hunRest : ∀ k ∈ ms, k.enabled = true →
            isApplied (setStatus st m.id (dispatchedStatus type)) k.id = true →
            varsChanged P (setStatus st m.id (dispatchedStatus type)) k.id = false := by
          intro k hk hen happ
          rw [hsame] at happ
          have := hunTail k hk hen happ
          rwa [varsChanged, hsame]
        have hrest := ih htail hunRest hx
        rwa [hsame] at hrest
    · exact ih htail hunTail hx

end Wave

/-! ### Runs -/

structure State where
  statuses : Statuses
  /-- Tasks pending, queued or in progress. -/
  active : List Dispatch
  /-- `deploy_project_parallel` has been called and its wave has not started. -/
  requested : Bool
  /-- Completion hooks that have not started their wave. -/
  hooks : Nat
  /-- Waves that have read the database and not committed. -/
  waves : List (List Dispatch)
  /-- Modules whose init worker has committed `initialized` and not checked its
  dependencies for the auto-apply. -/
  autoApply : List Nat
  /-- Every task dispatched by the run, in order. -/
  dispatched : List Dispatch

/-- What can happen next. -/
inductive Event
  | deploy
  | hook
  | commitWave (wave : List Dispatch)
  | finishInit (m : Nat)
  | checkAutoApply (m : ModuleSpec)
  | finishApply (m : Nat)
  deriving DecidableEq, Repr

def commitStatuses (st : Statuses) : List Dispatch → Statuses
  | [] => st
  | (m, type) :: wave => commitStatuses (setStatus st m (dispatchedStatus type)) wave

def currentWave (s : State) : List Dispatch :=
  dispatchFirstWave P s.active P.modules s.statuses

/-- One event, `none` when it cannot happen. -/
def step (s : State) : Event → Option State
  | .deploy =>
    if s.requested then
      some { s with requested := false, waves := s.waves ++ [currentWave P s] }
    else none
  | .hook =>
    if 0 < s.hooks then
      some { s with hooks := s.hooks - 1, waves := s.waves ++ [currentWave P s] }
    else none
  | .commitWave wave =>
    if wave ∈ s.waves then
      some { s with
        statuses := commitStatuses s.statuses wave
        active := s.active ++ wave
        waves := s.waves.erase wave
        dispatched := s.dispatched ++ wave }
    else none
  | .finishInit m =>
    if (m, .init) ∈ s.active then
      some { s with
        statuses := setStatus s.statuses m initialized
        active := s.active.erase (m, .init)
        autoApply := s.autoApply ++ [m] }
    else none
  | .checkAutoApply m =>
    if m.id ∈ s.autoApply ∧ m ∈ P.modules then
      if canExecute P s.statuses m then
        some { s with
          statuses := setStatus s.statuses m.id applying
          active := s.active ++ [(m.id, .apply)]
          autoApply := s.autoApply.erase m.id
          dispatched := s.dispatched ++ [(m.id, .apply)] }
      else some { s with autoApply := s.autoApply.erase m.id }
    else none
  | .finishApply m =>
    if (m, .apply) ∈ s.active then
      some { s with
        statuses := setStatus s.statuses m applied
        active := s.active.erase (m, .apply)
        hooks := s.hooks + 1 }
    else none

/-- A deploy request on a project with the given statuses and no task in flight. -/
def initial (st : Statuses) : State := ⟨st, [], true, 0, [], [], []⟩

end BnkForge.Deploy
