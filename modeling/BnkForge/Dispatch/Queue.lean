import BnkForge.Lib.Potential
import BnkForge.Deploy.Wave

/-!
# Concurrent dispatchers and the tasks they queue

The dispatchers of the event chain, each looking for an existing task and inserting a new
one in separate steps: `_dispatch_first_wave` and `_dispatch_first_destroy_wave`
(`backend/services/parallel_execution_service.py:367–701`), `run_deploy`
(`backend/services/stack_service.py:1005–1171`), the completion hooks
`_trigger_next_project_module`, `_trigger_next_stack_module` and
`_trigger_next_destroy_module` (`backend/tasks/_tofu_helpers.py:140–582`), and the auto-apply
of an init (`backend/tasks/opentofu_tasks.py:293–321`). What a dispatcher reads of statuses
and variables is an input of its look, since its session may have loaded it earlier; the
query for an existing task always reads the database and the session's own inserts.
-/

namespace BnkForge.Queue

open ModuleStatus Transition List
open BnkForge.Deploy (ModuleSpec Statuses Dispatch isApplied depsReady dispatchedStatus setStatus)

/-! ### Dispatchers -/

structure Site where
  modules : List ModuleSpec
  stack : Option (List Nat)

/-- What the session of a dispatcher has loaded. -/
structure View where
  statuses : Statuses
  varsChanged : Nat → Bool
  inCluster : Nat → Bool

/-- The loops that queue tasks; `forced` are the in-cluster modules that `force_destroy`
marks `destroyed` before the wave, none without it, and `scope` are the modules of the stack
that a destroy run is about, `none` for the whole project. -/
inductive Kind
  | firstWave
  | runDeploy
  | stackHook (completed : Nat)
  | destroyWave (forced : List Nat)
  | destroyHook (scope : Option (List Nat))
  deriving DecidableEq, Repr

def Kind.isDestroy : Kind → Bool
  | .destroyWave _ | .destroyHook _ => true
  | _ => false

/-- The waves commit all their tasks at the end, the other loops each task at once. -/
def Kind.isWave : Kind → Bool
  | .firstWave | .destroyWave _ => true
  | _ => false

def deployType (st : Statuses) (m : Nat) : TaskType :=
  if st m = some notInitialized then .init else .apply

/-- The modules that depend on `m`, within the scope of the destroy. -/
def dependents (site : Site) (scope : Option (List Nat)) (m : Nat) : List ModuleSpec :=
  site.modules.filter fun d ↦ d.dependencies.contains m && scope.all (·.contains d.id)

/-- The status says that nothing exists; a missing row counts as that. -/
def noInfra (st : Statuses) (m : Nat) : Bool := (st m).all ModuleStatus.noInfra

/-- A dependent does not block the destroy of its dependency. -/
def clears (scope : Option (List Nat)) (v : View) (d : ModuleSpec) : Bool :=
  noInfra v.statuses d.id ||
    (v.statuses d.id == some destroyFailed && scope.isNone && v.inCluster d.id)

/-- The statuses after the pre-pass of `force_destroy`. -/
def premark (forced : List Nat) (st : Statuses) : Statuses := fun m ↦
  if forced.contains m then some destroyed else st m

/-- The tests of the loops but the one for an existing task, and the task to queue. -/
def wants (site : Site) (v : View) (kind : Kind) (m : ModuleSpec) : Option TaskType :=
  match kind with
  | .firstWave =>
    if m.enabled && (!isApplied v.statuses m.id || v.varsChanged m.id) &&
        depsReady v.statuses m then
      some (deployType v.statuses m.id)
    else none
  | .runDeploy =>
    if m.enabled && (!isApplied v.statuses m.id || v.varsChanged m.id) &&
        depsReady v.statuses m &&
        [notInitialized, initialized, planned, initFailed, planFailed, applyFailed, applied].any
          (v.statuses m.id == some ·) then
      some (deployType v.statuses m.id)
    else none
  | .stackHook completed =>
    if m.enabled && !([applied, applying, applyFailed, planFailed].any
        (v.statuses m.id == some ·)) && m.dependencies.contains completed &&
        depsReady v.statuses m then
      some (deployType v.statuses m.id)
    else none
  | .destroyWave forced =>
    let st := premark forced v.statuses
    if !noInfra st m.id &&
        ((site.modules.filter (·.dependencies.contains m.id)).all (noInfra st ·.id)) then
      some .destroy
    else none
  | .destroyHook scope =>
    if !noInfra v.statuses m.id && (dependents site scope m.id).all (clears scope v) then
      some .destroy
    else none

/-- Two tasks of a module collide: both deploy it or both destroy it. -/
def collides (m : Nat) (destroy : Bool) (x : Dispatch) : Bool :=
  x.1 == m && (x.2 == .destroy) == destroy

def hasTask (kind : Kind) (tasks : List Dispatch) (m : Nat) : Bool :=
  tasks.any fun x ↦ x.1 == m && (!kind.isDestroy || x.2 == .destroy)

/-- A running loop: the modules it has not looked at and the tasks it has decided on and not
committed. -/
structure Dispatcher where
  kind : Kind
  todo : List ModuleSpec
  decided : List Dispatch

/-- The task a loop decides on at module `m`. -/
def decision (site : Site) (active : List Dispatch) (d : Dispatcher) (v : View)
    (m : ModuleSpec) : Option Dispatch :=
  match wants site v d.kind m with
  | some type =>
    if hasTask d.kind (active ++ d.decided) m.id then none else some (m.id, type)
  | none => none

/-! ### Runs -/

/-- The database and the running loops. -/
structure State where
  statuses : Statuses
  /-- Task rows of the chain that are pending, queued or in progress. -/
  active : List Dispatch
  dispatchers : List Dispatcher
  /-- Modules whose init has succeeded and whose auto-apply is not queued. -/
  autoApply : List Nat

/-- What can happen next; `j` is the position of a loop. -/
inductive Event
  /-- A request starts a first wave or `run_deploy`. -/
  | request (kind : Kind)
  | look (j : Nat) (v : View)
  /-- A task created outside the chain makes a loop pass over its next module. -/
  | skip (j : Nat)
  | commit (j : Nat)
  /-- A loop ends, or raises and loses what it has not committed. -/
  | stop (j : Nat)
  /-- A worker ends its task with this status of the module; `scope` is that of the run a
  destroy task belongs to. -/
  | finish (x : Dispatch) (outcome : ModuleStatus) (scope : Option (List Nat))
  /-- The worker of an init queues the apply, or finds dependencies missing. -/
  | autoApply (m : Nat) (canExecute : Bool)

def todoOf (site : Site) : Kind → List ModuleSpec
  | .runDeploy | .stackHook _ => site.modules.filter fun m ↦ site.stack.any (·.contains m.id)
  | _ => site.modules

def dependencyRows (site : Site) (m : Nat) : List ModuleSpec :=
  ((site.modules.filter (·.id == m)).flatMap (·.dependencies)).flatMap fun d ↦
    site.modules.filter (·.id == d)

/-- The loops that the end of a task starts. -/
def hooksOf (site : Site) (x : Dispatch) (outcome : ModuleStatus) (scope : Option (List Nat)) :
    List Dispatcher :=
  match x.2 with
  | .destroy => [⟨.destroyHook scope, dependencyRows site x.1, []⟩]
  | .apply =>
    if outcome = applied then
      if site.stack.any (·.contains x.1) then
        [⟨.stackHook x.1, todoOf site (.stackHook x.1), []⟩]
      else [⟨.firstWave, site.modules, []⟩]
    else []
  | _ => []

def commitStatuses (st : Statuses) (d : Dispatcher) : Statuses :=
  let marked := match d.kind with
    | .destroyWave forced => premark forced st
    | _ => st
  d.decided.foldl (fun st x ↦ setStatus st x.1
    (if x.2 = .destroy then destroying else dispatchedStatus x.2)) marked

/-- The state with loop `j` replaced. -/
def State.put (s : State) (j : Nat) (d : Dispatcher) : State :=
  { s with dispatchers := s.dispatchers.set j d }

def lookAt (site : Site) (s : State) (j : Nat) (v : View) (d : Dispatcher) : Option State :=
  match d.todo with
  | [] => none
  | m :: rest =>
    if d.kind.isWave ∨ d.decided = [] then
      some (s.put j
        { d with todo := rest, decided := d.decided ++ (decision site s.active d v m).toList })
    else none

/-- One event, `none` when it cannot happen. -/
def step (site : Site) (s : State) : Event → Option State
  | .request kind =>
    match kind with
    | .stackHook _ | .destroyHook _ => none
    | kind => some { s with dispatchers := s.dispatchers ++ [⟨kind, todoOf site kind, []⟩] }
  | .look j v => s.dispatchers[j]?.bind (lookAt site s j v)
  | .skip j =>
    s.dispatchers[j]?.map fun d ↦ s.put j { d with todo := d.todo.tail }
  | .commit j =>
    s.dispatchers[j]?.bind fun d ↦
      if d.kind.isWave → d.todo = [] then
        some { s.put j { d with decided := [] } with
          statuses := commitStatuses s.statuses d
          active := s.active ++ d.decided }
      else none
  | .stop j =>
    s.dispatchers[j]?.map fun _ ↦ { s with dispatchers := s.dispatchers.eraseIdx j }
  | .finish x outcome scope =>
    if x ∈ s.active then
      some { s with
        statuses := setStatus s.statuses x.1 outcome
        active := s.active.erase x
        dispatchers := s.dispatchers ++ hooksOf site x outcome scope
        autoApply :=
          if x.2 = .init ∧ outcome = initialized then s.autoApply ++ [x.1] else s.autoApply }
    else none
  | .autoApply m canExecute =>
    if m ∈ s.autoApply then
      if canExecute then
        some { s with
          statuses := setStatus s.statuses m applying
          active := s.active ++ [(m, .apply)]
          autoApply := s.autoApply.erase m }
      else some { s with autoApply := s.autoApply.erase m }
    else none

/-- No task and no loop in flight. -/
def initial (st : Statuses) : State := ⟨st, [], [], []⟩

/-! ### Collisions -/

def SingleTask (s : State) : Prop :=
  ∀ m destroy, s.active.countP (collides m destroy) ≤ 1

def LooksAlone (site : Site) (s : State) : Event → Prop
  | .look j v =>
    ∀ d ∈ s.dispatchers[j]?, ∀ m ∈ d.todo.head?, ∀ x ∈ decision site s.active d v m,
      (∀ other ∈ s.dispatchers.eraseIdx j, ∀ y ∈ other.decided,
        collides x.1 (x.2 == .destroy) y = false) ∧
      (x.2 ≠ .destroy → x.1 ∉ s.autoApply)
  | _ => True

instance (site : Site) (s : State) (e : Event) : Decidable (LooksAlone site s e) :=
  match e with
  | .look j v => inferInstanceAs (Decidable (∀ d ∈ s.dispatchers[j]?, ∀ m ∈ d.todo.head?,
      ∀ x ∈ decision site s.active d v m,
        (∀ other ∈ s.dispatchers.eraseIdx j, ∀ y ∈ other.decided,
          collides x.1 (x.2 == .destroy) y = false) ∧ (x.2 ≠ .destroy → x.1 ∉ s.autoApply)))
  | .request _ | .skip _ | .commit _ | .stop _ | .finish _ _ _ | .autoApply _ _ =>
    .isTrue trivial

/-- Everything that is or will become a task of module `m` that deploys, or destroys, it. -/
def holds (s : State) (m : Nat) (destroy : Bool) : Nat :=
  s.active.countP (collides m destroy) +
    (s.dispatchers.map fun d ↦ d.decided.countP (collides m destroy)).sum +
    if destroy then 0 else s.autoApply.count m

section Step

variable {site : Site} {s t : State}

theorem type_of_wants {v : View} {kind : Kind} {m : ModuleSpec} {type : TaskType}
    (h : wants site v kind m = some type) : (type == .destroy) = kind.isDestroy := by
  have hdeploy : ∀ st k, (deployType st k == .destroy) = false := by
    intro st k
    unfold deployType
    split <;> rfl
  cases kind with
  | firstWave | runDeploy | stackHook completed =>
    simp only [wants] at h
    split at h
    · cases h
      exact hdeploy _ _
    · cases h
  | destroyWave forced | destroyHook scope =>
    simp only [wants] at h
    split at h
    · cases h
      rfl
    · cases h

theorem decision_free {active : List Dispatch} {d : Dispatcher} {v : View} {m : ModuleSpec}
    {x : Dispatch} (h : decision site active d v m = some x) :
    ∀ y ∈ active ++ d.decided, collides x.1 (x.2 == .destroy) y = false := by
  unfold decision at h
  split at h
  · next type hw =>
    split at h
    · cases h
    · next hno =>
      cases h
      intro y hy
      rw [type_of_wants hw]
      by_contra hc
      apply hno
      refine any_eq_true.mpr ⟨y, hy, ?_⟩
      revert hc
      rw [collides]
      cases d.kind.isDestroy <;> cases y.1 == m.id <;> cases y.2 == .destroy <;> simp
  · cases h

theorem holds_put {j : Nat} {d : Dispatcher} (d' : Dispatcher) (hd : s.dispatchers[j]? = some d)
    (m : Nat) (destroy : Bool) :
    holds (s.put j d') m destroy + d.decided.countP (collides m destroy) =
      holds s m destroy + d'.decided.countP (collides m destroy) := by
  have hsum := Potential.sum_set (fun d ↦ d.decided.countP (collides m destroy)) d' hd
  simp only [holds, State.put]
  omega

theorem holds_eq_zero_of_decision {j : Nat} {v : View} {d : Dispatcher} {m : ModuleSpec}
    {x : Dispatch} (hd : s.dispatchers[j]? = some d)
    (hx : decision site s.active d v m = some x)
    (hothers : ∀ other ∈ s.dispatchers.eraseIdx j, ∀ y ∈ other.decided,
      collides x.1 (x.2 == .destroy) y = false)
    (hauto : x.2 ≠ .destroy → x.1 ∉ s.autoApply) : holds s x.1 (x.2 == .destroy) = 0 := by
  have hfree := decision_free hx
  have hactive : s.active.countP (collides x.1 (x.2 == .destroy)) = 0 := by
    rw [countP_eq_zero]
    intro y hy
    rw [hfree y (mem_append_left _ hy)]
    exact Bool.false_ne_true
  have hown : d.decided.countP (collides x.1 (x.2 == .destroy)) = 0 := by
    rw [countP_eq_zero]
    intro y hy
    rw [hfree y (mem_append_right _ hy)]
    exact Bool.false_ne_true
  have hrest : ((s.dispatchers.eraseIdx j).map fun d ↦
      d.decided.countP (collides x.1 (x.2 == .destroy))).sum = 0 := by
    apply sum_eq_zero
    intro n hn
    obtain ⟨other, hother, rfl⟩ := mem_map.mp hn
    rw [countP_eq_zero]
    intro y hy
    rw [hothers other hother y hy]
    exact Bool.false_ne_true
  have hwindow : (if (x.2 == .destroy) = true then 0 else s.autoApply.count x.1) = 0 := by
    split
    · rfl
    · next hne => exact count_eq_zero.mpr (hauto (by simpa using hne))
  rw [holds, hactive, Potential.sum_eq_add_eraseIdx _ hd, hown, hrest, hwindow]

private theorem holds_look {j : Nat} {v : View} {d : Dispatcher}
    (h : ∀ m destroy, holds s m destroy ≤ 1) (hok : LooksAlone site s (.look j v))
    (hd : s.dispatchers[j]? = some d) (hst : lookAt site s j v d = some t) :
    ∀ m destroy, holds t m destroy ≤ 1 := by
  intro m destroy
  unfold lookAt at hst
  split at hst
  · cases hst
  · next spec rest htodo =>
    split at hst
    · cases hst
      have hput := holds_put { d with
        todo := rest, decided := d.decided ++ (decision site s.active d v spec).toList } hd m destroy
      have hm := h m destroy
      cases hx : decision site s.active d v spec with
      | none =>
        simp only [hx, Option.toList_none, append_nil] at hput ⊢
        omega
      | some x =>
        simp only [hx, Option.toList_some, countP_append] at hput ⊢
        obtain ⟨hothers, hauto⟩ := hok d hd spec (by rw [htodo]; rfl) x hx
        cases hc : collides m destroy x with
        | false =>
          simp only [countP_cons, hc, countP_nil] at hput
          simp only [Bool.false_eq_true, if_false] at hput
          omega
        | true =>
          -- the new decision is the first claim on the module
          have hkey : m = x.1 ∧ destroy = (x.2 == .destroy) := by
            simp only [collides, Bool.and_eq_true, beq_iff_eq] at hc
            exact ⟨hc.1.symm, hc.2.symm⟩
          obtain ⟨rfl, rfl⟩ := hkey
          have hzero := holds_eq_zero_of_decision hd hx hothers hauto
          simp only [countP_cons, hc, countP_nil, if_true] at hput
          omega
    · cases hst

private theorem holds_commit {j : Nat} {d : Dispatcher} (hd : s.dispatchers[j]? = some d)
    (m : Nat) (destroy : Bool) (st : Statuses) :
    holds { s.put j { d with decided := [] } with
      statuses := st, active := s.active ++ d.decided } m destroy = holds s m destroy := by
  have hsum := Potential.sum_set (fun d ↦ d.decided.countP (collides m destroy)) { d with decided := [] } hd
  simp only [holds, State.put, countP_append]
  simp only [countP_nil] at hsum
  omega

private theorem holds_stop {j : Nat} {d : Dispatcher} (hd : s.dispatchers[j]? = some d)
    (m : Nat) (destroy : Bool) :
    holds { s with dispatchers := s.dispatchers.eraseIdx j } m destroy ≤ holds s m destroy := by
  have hsum := Potential.sum_eq_add_eraseIdx (fun d ↦ d.decided.countP (collides m destroy)) hd
  simp only [holds]
  omega

private theorem holds_spawn (s : State) (new : List Dispatcher)
    (hnew : ∀ d ∈ new, d.decided = []) (m : Nat) (destroy : Bool) :
    ((s.dispatchers ++ new).map fun d ↦ d.decided.countP (collides m destroy)).sum =
      (s.dispatchers.map fun d ↦ d.decided.countP (collides m destroy)).sum := by
  have hzero : (new.map fun d ↦ d.decided.countP (collides m destroy)).sum = 0 := by
    apply sum_eq_zero
    intro n hn
    obtain ⟨d, hd, rfl⟩ := mem_map.mp hn
    rw [hnew d hd, countP_nil]
  rw [map_append, sum_append, hzero, Nat.add_zero]

private theorem decided_hooksOf (site : Site) (x : Dispatch) (outcome : ModuleStatus)
    (scope : Option (List Nat)) :
    ∀ d ∈ hooksOf site x outcome scope, d.decided = [] := by
  intro d hd
  unfold hooksOf at hd
  split at hd
  · rw [mem_singleton.mp hd]
  · split at hd
    · split at hd
      · rw [mem_singleton.mp hd]
      · rw [mem_singleton.mp hd]
    · cases hd
  · cases hd

private theorem holds_finish {x : Dispatch} (hx : x ∈ s.active) (outcome : ModuleStatus)
    (scope : Option (List Nat)) (st : Statuses) (m : Nat) (destroy : Bool) :
    holds { s with
      statuses := st
      active := s.active.erase x
      dispatchers := s.dispatchers ++ hooksOf site x outcome scope
      autoApply :=
        if x.2 = .init ∧ outcome = initialized then s.autoApply ++ [x.1] else s.autoApply } m
        destroy ≤ holds s m destroy := by
  have hspawn := holds_spawn s _ (decided_hooksOf site x outcome scope) m destroy
  have herase := (perm_cons_erase hx).countP_eq (collides m destroy)
  rw [countP_cons] at herase
  simp only [holds, hspawn]
  by_cases hinit : x.2 = .init ∧ outcome = initialized
  · rw [if_pos hinit]
    cases destroy with
    | true =>
      simp only [if_true]
      omega
    | false =>
      -- an init that succeeded leaves the active tasks and enters the window
      have hc : collides m false x = (x.1 == m) := by
        simp [collides, hinit.1]
      rw [hc] at herase
      simp only [Bool.false_eq_true, if_false, count_append, count_singleton]
      omega
  · rw [if_neg hinit]
    omega

private theorem holds_autoApply {m : Nat} (hm : m ∈ s.autoApply) (st : Statuses) (k : Nat)
    (destroy : Bool) :
    holds { s with
      statuses := st
      active := s.active ++ [(m, .apply)]
      autoApply := s.autoApply.erase m } k destroy = holds s k destroy := by
  have hpos : 0 < s.autoApply.count m := count_pos_iff.mpr hm
  simp only [holds, countP_append, countP_singleton, collides]
  cases destroy with
  | true => simp
  | false =>
    by_cases hk : m = k
    · subst hk
      simp [count_erase_self]
      omega
    · simp [hk, count_erase_of_ne (Ne.symm hk)]

theorem holds_step {e : Event} (h : ∀ m destroy, holds s m destroy ≤ 1)
    (hok : LooksAlone site s e) (hst : step site s e = some t) :
    ∀ m destroy, holds t m destroy ≤ 1 := by
  intro m destroy
  have hm := h m destroy
  cases e with
  | request kind =>
    have hspawn := holds_spawn s [⟨kind, todoOf site kind, []⟩] (by simp) m destroy
    cases kind with
    | stackHook completed | destroyHook scope => cases hst
    | firstWave | runDeploy | destroyWave forced =>
      cases hst
      simp only [holds, hspawn]
      exact hm
  | look j v =>
    obtain ⟨d, hd, hlook⟩ := Option.bind_eq_some_iff.mp hst
    exact holds_look h hok hd hlook m destroy
  | skip j =>
    obtain ⟨d, hd, rfl⟩ := Option.map_eq_some_iff.mp hst
    have hput := holds_put { d with todo := d.todo.tail } hd m destroy
    simp only at hput
    omega
  | commit j =>
    obtain ⟨d, hd, hst⟩ := Option.bind_eq_some_iff.mp hst
    split at hst
    · cases hst
      rw [holds_commit hd]
      exact hm
    · cases hst
  | stop j =>
    obtain ⟨d, hd, rfl⟩ := Option.map_eq_some_iff.mp hst
    exact Nat.le_trans (holds_stop hd m destroy) hm
  | finish x outcome scope =>
    rw [step] at hst
    split at hst
    · next hx =>
      cases hst
      exact Nat.le_trans (holds_finish hx outcome scope _ m destroy) hm
    · cases hst
  | autoApply k canExecute =>
    rw [step] at hst
    split at hst
    · next hk =>
      split at hst
      · cases hst
        rw [holds_autoApply hk]
        exact hm
      · cases hst
        have hle : (s.autoApply.erase k).count m ≤ s.autoApply.count m :=
          List.Sublist.count_le m erase_sublist
        cases destroy with
        | true => exact hm
        | false =>
          simp only [holds, Bool.false_eq_true, if_false] at hm ⊢
          omega
    · cases hst

end Step

/-- Two modules and a third that depends on both, in one stack. -/
def diamondSite : Site where
  modules := [⟨1, true, []⟩, ⟨2, true, []⟩, ⟨3, true, [1, 2]⟩]
  stack := some [1, 2, 3]

def allInitialized : Statuses := fun _ ↦ some initialized

/-- A session that has just loaded these statuses. -/
def freshView (st : Statuses) : View := ⟨st, fun _ ↦ false, fun _ ↦ false⟩

/-- The first two modules are applied, the third is initialized. -/
def predecessorsApplied : Statuses := fun m ↦ some (if m = 3 then initialized else applied)

/-- `run_deploy` queues both predecessors, and both finish. -/
def predecessorsFinish : List Event :=
  [.request .runDeploy, .look 0 (freshView allInitialized), .commit 0,
    .look 0 (freshView allInitialized), .commit 0, .look 0 (freshView allInitialized), .stop 0,
    .finish (1, .apply) applied none, .finish (2, .apply) applied none]

def hookAlone (j : Nat) : List Event :=
  [.look j (freshView predecessorsApplied), .look j (freshView predecessorsApplied),
    .look j (freshView predecessorsApplied), .commit j]

def hooksTogether : List Event :=
  (hookAlone 0).take 3 ++ (hookAlone 1).take 3 ++ [.commit 0, .commit 1]

end BnkForge.Queue
