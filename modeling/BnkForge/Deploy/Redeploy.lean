import BnkForge.Deploy.Wave
import BnkForge.Destroy.Chain

/-!
# Redeploying a stack

`run_deploy` (`backend/services/stack_service.py:1005–1171`) goes through the modules that are
not applied, and those that are and whose variables have changed; it queues what is ready and
defers the rest to the completion hooks, `_update_stack_status_if_needed` and
`_trigger_next_stack_module` (`backend/tasks/_tofu_helpers.py:81–308`), which decide by status
alone. All tasks succeed. The loop commits a task row before it commits the module's status;
the attributes of a session are those of its last commit until they are read again one by one.
-/

namespace BnkForge.Deploy.Stack

open ModuleStatus Transition BnkForge.Module List

/-- A stack by `deployment_order`, with the hashes of variables that belong to a module when
`run_deploy` is called, and which modules have captured outputs once applied. -/
structure StackSpec (H : Type) where
  modules : List ModuleSpec
  ids_nodup : (modules.map ModuleSpec.id).Nodup
  acyclic : ∃ rank : Nat → Nat, ∀ m ∈ modules, ∀ d ∈ modules, d.id ∈ m.dependencies →
    rank d.id < rank m.id
  /-- `vars_hash`, which only `run_opentofu_plan` writes. -/
  storedHash : Nat → Option H
  currentHash : Nat → H
  /-- The hash of the variables of the last apply. -/
  appliedHash : Nat → H
  /-- The hash of the variables that the saved plan was computed from, if there is one. -/
  savedPlan : Nat → Option H
  outputsCaptured : Nat → Bool

/-! ### State -/

/-- Where the loop of `run_deploy` stands. -/
inductive LoopPhase
  | idle
  /-- The tests for a module have passed; its task row is not committed. -/
  | decided (x : Dispatch)
  /-- The task is queued; the module's status is not committed. -/
  | unmarked (x : Dispatch)
  deriving DecidableEq, Repr

def LoopPhase.pending : LoopPhase → Option Dispatch
  | decided x => some x
  | _ => none

def LoopPhase.queued : LoopPhase → Option Dispatch
  | unmarked x => some x
  | _ => none

/-- The loop of `run_deploy` over `pending_modules`. -/
structure Loop where
  todo : List ModuleSpec
  /-- The statuses that its session holds. -/
  view : Statuses
  phase : LoopPhase

/-- The loop of `_trigger_next_stack_module` after the apply of `completed`. -/
structure Hook where
  completed : Nat
  view : Statuses
  todo : List ModuleSpec
  /-- What it has decided and not committed. -/
  decided : Option Dispatch

/-- The database and the workers of a redeploy. -/
structure State where
  statuses : Statuses
  stackStatus : StackInstanceStatus
  /-- Tasks pending, queued or in progress. -/
  active : List Dispatch
  loop : Loop
  /-- Modules whose apply is committed and whose hook has not begun. -/
  ended : List Nat
  hooks : List Hook
  /-- Modules whose init is committed and whose dependencies are not yet checked for the
  auto-apply. -/
  autoApply : List Nat
  /-- The modules that the run has taken up. -/
  touched : List Nat
  /-- The modules that the run has applied. -/
  finished : List Nat
  /-- The modules to which the run has applied a saved plan of other variables. -/
  outdated : List Nat

variable {H : Type} [DecidableEq H] (S : StackSpec H)

/-- `vars_changed`; `backend/services/workspace_manager.py:762`. -/
def varsChanged (x : Nat) (current : H) : Bool :=
  match S.storedHash x with
  | none => false
  | some stored => current != stored

/-- `pending_modules`. -/
def pendingModules (st : Statuses) : List ModuleSpec :=
  (S.modules.filter (fun m ↦ !isApplied st m.id) ++
    S.modules.filter fun m ↦ isApplied st m.id && varsChanged S m.id (S.currentHash m.id)).filter
      ModuleSpec.enabled

/-- What `run_deploy` queues for a module whose dependencies are applied. -/
def queuedFor : ModuleStatus → Option TaskType
  | notInitialized => some .init
  | initialized | planned | initFailed | planFailed | applyFailed | applied => some .apply
  | _ => none

/-- The statuses that `_trigger_next_stack_module` skips. -/
def skipped : ModuleStatus → Bool
  | applied | applying | applyFailed | planFailed => true
  | _ => false

/-- The statuses of a stack whose hooks chain (`should_chain`). -/
def chains : StackInstanceStatus → Bool
  | .deploying | .pending | .failed => true
  | _ => false

/-- `_has_active_task`. -/
def hasActiveTask (s : State) (x : Nat) : Bool := s.active.any (·.1 == x)

/-- `can_execute`; `backend/services/execution/variable_assembler.py:792`. -/
def canExecute (st : Statuses) (m : ModuleSpec) : Bool :=
  m.dependencies.all fun d ↦ isApplied st d && S.outputsCaptured d

/-- The status that `update_stack_progress` gives the stack. -/
def progress (s : State) : StackInstanceStatus :=
  (Destroy.stackProgress (S.modules.filterMap fun m ↦ s.statuses m.id) s.stackStatus
    (S.modules.map ModuleSpec.id)).1

/-- The tests of `_trigger_next_stack_module` for the module `m`. -/
def triggerTest (s : State) (h : Hook) (m : ModuleSpec) : Option TaskType :=
  match h.view m.id with
  | none => none
  | some status =>
    if m.enabled && !skipped status && m.dependencies.contains h.completed &&
        depsReady h.view m && !hasActiveTask s m.id then
      some (if status = notInitialized then .init else .apply)
    else none

/-! ### Steps -/

/-- What can happen next; `j` is the position of a hook. -/
inductive Event (H : Type)
  /-- `run_deploy` looks at its next module. -/
  | visit
  /-- It commits the task row. -/
  | queue
  /-- It commits the module's status. -/
  | mark
  | finishInit (x : Nat)
  | checkAutoApply (m : ModuleSpec)
  /-- The apply finds variables with the hash `current`; `saved` says whether it applies a saved
  plan, which it does only if `plan_is_valid`. -/
  | finishApply (x : Nat) (current : H) (saved : Bool)
  | startHook (x : Nat)
  /-- The hook looks at its next module. -/
  | look (j : Nat)
  | commit (j : Nat)
  /-- `run_deploy`, or the hook at `j`, reads a status again. -/
  | refresh (j : Option Nat) (x : Nat)
  /-- `update_stack_progress` recovers a stale module (BUG-009). -/
  | recover (x : Nat) (lastTask : Option TaskStatus)
  /-- Somebody else recomputes the stack's status, once `run_deploy` has written to it. -/
  | poll
  deriving DecidableEq, Repr

/-- Read a status again. -/
def reread (s : State) (view : Statuses) (x : Nat) : Statuses :=
  Function.update view x (s.statuses x)

/-- One event, `none` when it cannot happen. -/
def step (s : State) : Event H → Option State
  | .visit =>
    match s.loop.phase, s.loop.todo with
    | .idle, m :: ms =>
      if hasActiveTask s m.id || !depsReady s.loop.view m then
        some { s with loop := { s.loop with todo := ms } }
      else
        match (s.loop.view m.id).bind queuedFor with
        | some type =>
          some { s with
            loop := { s.loop with todo := ms, phase := .decided (m.id, type) }
            touched := s.touched ++ [m.id] }
        | none => some { s with loop := { s.loop with todo := ms } }
    | _, _ => none
  | .queue =>
    match s.loop.phase with
    | .decided x =>
      some { s with
        active := s.active ++ [x]
        loop := { s.loop with view := s.statuses, phase := .unmarked x } }
    | _ => none
  | .mark =>
    match s.loop.phase with
    | .unmarked x =>
      some { s with
        statuses := setStatus s.statuses x.1 (dispatchedStatus x.2)
        loop := { s.loop with
          view := setStatus s.statuses x.1 (dispatchedStatus x.2), phase := .idle } }
    | _ => none
  | .finishInit x =>
    if (x, .init) ∈ s.active then
      some { s with
        statuses := setStatus s.statuses x initialized
        active := s.active.erase (x, .init)
        autoApply := s.autoApply ++ [x] }
    else none
  | .checkAutoApply m =>
    if m.id ∈ s.autoApply ∧ m ∈ S.modules then
      if canExecute S s.statuses m then
        some { s with
          statuses := setStatus s.statuses m.id applying
          active := s.active ++ [(m.id, .apply)]
          autoApply := s.autoApply.erase m.id }
      else some { s with autoApply := s.autoApply.erase m.id }
    else none
  | .finishApply x current saved =>
    if (x, .apply) ∈ s.active ∧
        (saved = true → S.savedPlan x ≠ none ∧ varsChanged S x current = false) then
      some { s with
        statuses := setStatus s.statuses x applied
        active := s.active.erase (x, .apply)
        ended := s.ended ++ [x]
        finished := s.finished ++ [x]
        outdated :=
          if saved && S.savedPlan x != some current then s.outdated ++ [x] else s.outdated }
    else none
  | .startHook x =>
    if x ∈ s.ended then
      some { s with
        stackStatus := progress S s
        ended := s.ended.erase x
        hooks :=
          if chains s.stackStatus && isApplied s.statuses x then
            s.hooks ++ [⟨x, s.statuses, S.modules, none⟩]
          else s.hooks }
    else none
  | .look j =>
    match s.hooks[j]? with
    | some ⟨_, _, [], none⟩ => some { s with hooks := s.hooks.eraseIdx j }
    | some ⟨completed, view, m :: ms, none⟩ =>
      match triggerTest s ⟨completed, view, m :: ms, none⟩ m with
      | some type =>
        some { s with
          hooks := s.hooks.set j ⟨completed, view, ms, some (m.id, type)⟩
          touched := s.touched ++ [m.id] }
      | none => some { s with hooks := s.hooks.set j ⟨completed, view, ms, none⟩ }
    | _ => none
  | .commit j =>
    match s.hooks[j]? with
    | some ⟨completed, _, ms, some x⟩ =>
      some { s with
        statuses := setStatus s.statuses x.1 (dispatchedStatus x.2)
        active := s.active ++ [x]
        hooks := s.hooks.set j
          ⟨completed, setStatus s.statuses x.1 (dispatchedStatus x.2), ms, none⟩ }
    | _ => none
  | .refresh none x => some { s with loop := { s.loop with view := reread s s.loop.view x } }
  | .refresh (some j) x =>
    match s.hooks[j]? with
    | some h => some { s with hooks := s.hooks.set j { h with view := reread s h.view x } }
    | none => none
  | .recover x lastTask =>
    if (s.statuses x).any transitional && !hasActiveTask s x then
      some { s with
        statuses := fun y ↦
          if y = x then (s.statuses y).map (recoverStale lastTask) else s.statuses y }
    else none
  | .poll => if s.touched = [] then none else some { s with stackStatus := progress S s }

/-- `run_deploy` has been accepted on a stack with the given statuses and no task in flight. -/
def start (st : Statuses) : State :=
  ⟨st, .deploying, [], ⟨pendingModules S st, st, .idle⟩, [], [], [], [], [], []⟩

/-- Nothing of the redeploy is left to happen. -/
def Quiescent (s : State) : Prop :=
  s.loop.todo = [] ∧ s.loop.phase = .idle ∧ s.active = [] ∧ s.ended = [] ∧ s.hooks = [] ∧
    s.autoApply = []

/-- Every enabled module has been applied by the run with its current variables, or was applied
with unchanged variables when `run_deploy` was called. -/
def Redeployed (st : Statuses) (t : State) : Prop :=
  ∀ m ∈ S.modules, m.enabled = true →
    m.id ∈ t.finished ∧ m.id ∉ t.outdated ∨
      isApplied st m.id = true ∧ S.appliedHash m.id = S.currentHash m.id

/-! ### Where the chain keeps up -/

def Needs (st : Statuses) (x : Nat) : Prop := x ∈ (pendingModules S st).map ModuleSpec.id

def Provided (st : Statuses) : Prop :=
  ∀ m ∈ pendingModules S st, ∀ d ∈ m.dependencies,
    (isApplied st d = true ∨ Needs S st d) ∧
      (st m.id = some notInitialized → S.outputsCaptured d = true)

def Dated (st : Statuses) : Prop :=
  ∀ m ∈ S.modules, m.enabled = true →
    (isApplied st m.id = true → varsChanged S m.id (S.currentHash m.id) = false →
      S.appliedHash m.id = S.currentHash m.id) ∧
    ∀ h ∈ S.savedPlan m.id, S.storedHash m.id = some h

def isOpen (status : Option ModuleStatus) : Bool := status.any fun status ↦ !skipped status

/-- The step loses nothing: a module that `run_deploy` is the first to look at is queued if its
dependencies are applied, and otherwise has a status that the hooks take up; a status is not
committed after its task has ended; no module that needs to be deployed is recovered. -/
def KeepsUp (st : Statuses) (s : State) : Event H → Prop
  | .visit => ∀ m ∈ s.loop.todo.head?, m.id ∉ s.touched →
      if depsReady s.loop.view m then ((s.loop.view m.id).bind queuedFor).isSome = true
      else isOpen (s.loop.view m.id) = true
  | .mark => ∀ x ∈ s.loop.phase.queued, x ∈ s.active
  | .recover x _ => ¬ Needs S st x
  | _ => True

instance (st : Statuses) (x : Nat) : Decidable (Needs S st x) :=
  inferInstanceAs (Decidable (x ∈ (pendingModules S st).map ModuleSpec.id))

instance (st : Statuses) (s : State) : (e : Event H) → Decidable (KeepsUp S st s e)
  | .visit => inferInstanceAs (Decidable (∀ m ∈ s.loop.todo.head?, m.id ∉ s.touched →
      if depsReady s.loop.view m then ((s.loop.view m.id).bind queuedFor).isSome = true
      else isOpen (s.loop.view m.id) = true))
  | .mark => inferInstanceAs (Decidable (∀ x ∈ s.loop.phase.queued, x ∈ s.active))
  | .recover x _ => inferInstanceAs (Decidable (¬ Needs S st x))
  | .queue | .finishInit _ | .checkAutoApply _ | .finishApply .. | .startHook _ | .look _
  | .commit _ | .refresh .. | .poll => inferInstanceAs (Decidable True)

/-! ### What a step can do -/

/-- The steps, with one constructor for each branch of `step`. -/
inductive Steps (s : State) : Event H → State → Prop
  | pass {m : ModuleSpec} {ms : List ModuleSpec} (htodo : s.loop.todo = m :: ms)
      (hpass : hasActiveTask s m.id = true ∨ depsReady s.loop.view m = false ∨
        (s.loop.view m.id).bind queuedFor = none) :
      Steps s .visit { s with loop := { s.loop with todo := ms } }
  | decide {m : ModuleSpec} {ms : List ModuleSpec} {type : TaskType}
      (htodo : s.loop.todo = m :: ms) (hphase : s.loop.phase = .idle)
      (htype : (s.loop.view m.id).bind queuedFor = some type) :
      Steps s .visit { s with
        loop := { s.loop with todo := ms, phase := .decided (m.id, type) }
        touched := s.touched ++ [m.id] }
  | queue {x : Dispatch} (hphase : s.loop.phase = .decided x) :
      Steps s .queue { s with
        active := s.active ++ [x]
        loop := { s.loop with view := s.statuses, phase := .unmarked x } }
  | mark {x : Dispatch} (hphase : s.loop.phase = .unmarked x) :
      Steps s .mark { s with
        statuses := setStatus s.statuses x.1 (dispatchedStatus x.2)
        loop := { s.loop with
          view := setStatus s.statuses x.1 (dispatchedStatus x.2), phase := .idle } }
  | finishInit {x : Nat} (hx : (x, .init) ∈ s.active) :
      Steps s (.finishInit x) { s with
        statuses := setStatus s.statuses x initialized
        active := s.active.erase (x, .init)
        autoApply := s.autoApply ++ [x] }
  | applyNow {m : ModuleSpec} (hm : m.id ∈ s.autoApply) :
      Steps s (.checkAutoApply m) { s with
        statuses := setStatus s.statuses m.id applying
        active := s.active ++ [(m.id, .apply)]
        autoApply := s.autoApply.erase m.id }
  | applyLater {m : ModuleSpec} (hmem : m ∈ S.modules) (hm : m.id ∈ s.autoApply)
      (hcan : canExecute S s.statuses m = false) :
      Steps s (.checkAutoApply m) { s with autoApply := s.autoApply.erase m.id }
  | finishApply {x : Nat} {current : H} {saved : Bool} (hx : (x, .apply) ∈ s.active)
      (hsaved : saved = true → S.savedPlan x ≠ none ∧ varsChanged S x current = false) :
      Steps s (.finishApply x current saved) { s with
        statuses := setStatus s.statuses x applied
        active := s.active.erase (x, .apply)
        ended := s.ended ++ [x]
        finished := s.finished ++ [x]
        outdated :=
          if saved && S.savedPlan x != some current then s.outdated ++ [x] else s.outdated }
  | startHook {x : Nat} (hx : x ∈ s.ended) :
      Steps s (.startHook x) { s with
        stackStatus := progress S s
        ended := s.ended.erase x
        hooks :=
          if chains s.stackStatus && isApplied s.statuses x then
            s.hooks ++ [⟨x, s.statuses, S.modules, none⟩]
          else s.hooks }
  | endHook {j : Nat} {h : Hook} (hj : s.hooks[j]? = some h) (htodo : h.todo = [])
      (hdecided : h.decided = none) :
      Steps s (.look j) { s with hooks := s.hooks.eraseIdx j }
  | overlook {j : Nat} {h : Hook} {m : ModuleSpec} {ms : List ModuleSpec}
      (hj : s.hooks[j]? = some h) (htodo : h.todo = m :: ms) (hdecided : h.decided = none)
      (htest : triggerTest s h m = none) :
      Steps s (.look j) { s with hooks := s.hooks.set j { h with todo := ms } }
  | take {j : Nat} {h : Hook} {m : ModuleSpec} {ms : List ModuleSpec} {type : TaskType}
      (hj : s.hooks[j]? = some h) (htodo : h.todo = m :: ms) (hdecided : h.decided = none)
      (htest : triggerTest s h m = some type) :
      Steps s (.look j) { s with
        hooks := s.hooks.set j { h with todo := ms, decided := some (m.id, type) }
        touched := s.touched ++ [m.id] }
  | commit {j : Nat} {h : Hook} {x : Dispatch} (hj : s.hooks[j]? = some h)
      (hdecided : h.decided = some x) :
      Steps s (.commit j) { s with
        statuses := setStatus s.statuses x.1 (dispatchedStatus x.2)
        active := s.active ++ [x]
        hooks := s.hooks.set j { h with
          view := setStatus s.statuses x.1 (dispatchedStatus x.2), decided := none } }
  | refreshLoop (x : Nat) :
      Steps s (.refresh none x) { s with
        loop := { s.loop with view := reread s s.loop.view x } }
  | refreshHook {j : Nat} {h : Hook} (x : Nat) (hj : s.hooks[j]? = some h) :
      Steps s (.refresh (some j) x) { s with
        hooks := s.hooks.set j { h with view := reread s h.view x } }
  | recover {x : Nat} (lastTask : Option TaskStatus)
      (hx : (s.statuses x).any transitional = true) :
      Steps s (.recover x lastTask) { s with
        statuses := fun y ↦
          if y = x then (s.statuses y).map (recoverStale lastTask) else s.statuses y }
  | poll (htouched : s.touched ≠ []) : Steps s .poll { s with stackStatus := progress S s }

/-! ### Tracking a run -/

def taken (s : State) : List Dispatch :=
  s.active ++ s.loop.phase.pending.toList ++ s.hooks.filterMap Hook.decided

/-- The run is at work on the module. -/
def InFlight (s : State) (x : Nat) : Prop :=
  x ∈ (taken s).map Prod.fst ∨ x ∈ s.autoApply

/-- The statuses that a run in which all tasks succeed writes. -/
def written : ModuleStatus → Bool
  | initializing | initialized | applying | applied => true
  | _ => false

/-- A view holds the status from the start, or one that the run has written. -/
def Known (st : Statuses) (touched : List Nat) (view : Statuses) : Prop :=
  ∀ x, isApplied st x = true ∨ Needs S st x →
    view x = st x ∨ x ∈ touched ∧ ∃ a, view x = some a ∧ written a = true

/-- What holds in every state of a redeploy of a stack with the statuses `st`. -/
structure Tracked (st : Statuses) (s : State) : Prop where
  needs : ∀ x ∈ s.touched, Needs S st x
  known : Known S st s.touched s.statuses
  knownLoop : Known S st s.touched s.loop.view
  knownHooks : ∀ h ∈ s.hooks, Known S st s.touched h.view
  todo : ∀ m ∈ s.loop.todo, m ∈ pendingModules S st
  todoHooks : ∀ h ∈ s.hooks, ∀ m ∈ h.todo, m ∈ S.modules
  kinds : ∀ x ∈ taken s, x.1 ∈ s.touched ∧
    (x.2 = .apply ∨ x.2 = .init ∧ st x.1 = some notInitialized)
  initialised : ∀ x ∈ s.autoApply, x ∈ s.touched ∧ st x = some notInitialized ∧
    ∃ a, s.statuses x = some a ∧ written a = true
  ended : ∀ x ∈ s.ended, x ∈ s.touched
  completed : ∀ h ∈ s.hooks, h.completed ∈ s.touched
  alive : s.touched ≠ [] → ∃ x a, Needs S st x ∧ st x = some a ∧ a ≠ destroyed
  applied : ∀ x, Needs S st x → isApplied s.statuses x = true →
    isApplied st x = true ∨ x ∈ s.finished
  running : ∀ x a, Needs S st x → s.statuses x = some a → transitional a = true →
    x ∈ s.active.map Prod.fst ∨ s.statuses x = st x

def Coming (h : Hook) (m : ModuleSpec) : Prop :=
  h.completed ∈ m.dependencies ∧ m ∈ h.todo ∧ depsReady h.view m = true ∧
    isOpen (h.view m.id) = true

def Woken (s : State) (m : ModuleSpec) : Prop :=
  depsReady s.statuses m = false ∨ (∃ x ∈ s.ended, x ∈ m.dependencies) ∨
    ∃ h ∈ s.hooks, Coming h m

/-- The run is done with the module. -/
def Done (s : State) (x : Nat) : Prop := x ∈ s.finished ∧ isApplied s.statuses x = true

/-- The module has been applied, is being worked on or will be, while the hooks chain. -/
inductive Cared (st : Statuses) (s : State) (m : ModuleSpec) : Prop
  | ahead (hnot : m.id ∉ s.touched) (htodo : m ∈ s.loop.todo)
      (hwoken : isOpen (st m.id) = true → Woken s m ∨ depsReady s.loop.view m = true)
  | inFlight (h : InFlight s m.id)
  | done (h : Done s m.id)
  | waiting (hopen : isOpen (s.statuses m.id) = true) (hwoken : Woken s m)

/-- The module has been applied or will be, whether or not the hooks chain. -/
def Settled (st : Statuses) (s : State) (m : ModuleSpec) : Prop :=
  m.id ∈ s.finished ∨ isOpen (st m.id) = false ∧
    (m.id ∉ s.touched ∧ m ∈ s.loop.todo ∨ InFlight s m.id)

/-- The hooks chain and every module is cared for, or no module is left to the hooks. -/
def Complete (st : Statuses) (s : State) : Prop :=
  chains s.stackStatus = true ∧ (∀ m ∈ pendingModules S st, Cared st s m) ∨
    ∀ m ∈ pendingModules S st, Settled st s m

section Runs

variable {S} {st : Statuses} {s t : State} {e : Event H} {m : ModuleSpec} {x : Nat}

theorem steps_of_step (h : step S s e = some t) : Steps S s e t := by
  cases e with
  | visit =>
    simp only [step] at h
    split at h
    · next m ms hphase htodo =>
      split at h
      · next hpass =>
        cases h
        refine .pass htodo ?_
        rw [Bool.or_eq_true, Bool.not_eq_true'] at hpass
        exact hpass.imp_right Or.inl
      · split at h
        · next type htype =>
          cases h
          exact .decide htodo hphase htype
        · next hnone =>
          cases h
          exact .pass htodo (Or.inr (Or.inr hnone))
    · cases h
  | queue =>
    simp only [step] at h
    split at h
    · next x hphase =>
      cases h
      exact .queue hphase
    · cases h
  | mark =>
    simp only [step] at h
    split at h
    · next x hphase =>
      cases h
      exact .mark hphase
    · cases h
  | finishInit x =>
    obtain ⟨hx, ⟨⟩⟩ := Option.ite_none_right_eq_some.mp h
    exact .finishInit hx
  | checkAutoApply m =>
    obtain ⟨⟨hm, hmem⟩, h⟩ := Option.ite_none_right_eq_some.mp h
    split at h
    · cases h
      exact .applyNow hm
    · next hcan =>
      cases h
      exact .applyLater hmem hm (Bool.eq_false_iff.mpr hcan)
  | finishApply x current saved =>
    obtain ⟨⟨hx, hsaved⟩, ⟨⟩⟩ := Option.ite_none_right_eq_some.mp h
    exact .finishApply hx hsaved
  | startHook x =>
    obtain ⟨hx, ⟨⟩⟩ := Option.ite_none_right_eq_some.mp h
    exact .startHook hx
  | look j =>
    simp only [step] at h
    split at h
    · next hj =>
      cases h
      exact .endHook hj rfl rfl
    · next completed view m ms hj =>
      split at h
      · next type htest =>
        cases h
        exact .take hj rfl rfl htest
      · next htest =>
        cases h
        exact .overlook hj rfl rfl htest
    · cases h
  | commit j =>
    simp only [step] at h
    split at h
    · next hj =>
      cases h
      exact .commit hj rfl
    · cases h
  | refresh j x =>
    cases j with
    | none =>
      cases h
      exact .refreshLoop x
    | some j =>
      simp only [step] at h
      split at h
      · next hj =>
        cases h
        exact .refreshHook x hj
      · cases h
  | recover x lastTask =>
    obtain ⟨hx, ⟨⟩⟩ := Option.ite_none_right_eq_some.mp h
    rw [Bool.and_eq_true] at hx
    exact .recover lastTask hx.1
  | poll =>
    obtain ⟨htouched, ⟨⟩⟩ := Option.ite_none_left_eq_some.mp h
    exact .poll htouched

/-! #### Lists with one entry replaced -/

private theorem forall_mem_set {α : Type} {P : α → Prop} {l : List α} {j : Nat} {b : α}
    (h : ∀ a ∈ l, P a) (hb : P b) : ∀ a ∈ l.set j b, P a := by
  intro a ha
  rcases mem_or_eq_of_mem_set ha with ha | rfl
  · exact h a ha
  · exact hb

private theorem exists_mem_set {α : Type} {P : α → Prop} {l : List α} {j : Nat} {a b : α}
    (hj : l[j]? = some a) (h : ∃ c ∈ l, P c) (hab : P a → P b) : ∃ c ∈ l.set j b, P c := by
  obtain ⟨c, hc, hPc⟩ := h
  obtain ⟨i, hi⟩ := mem_iff_getElem?.mp hc
  by_cases hij : j = i
  · subst hij
    cases hj.symm.trans hi
    have hlt : j < l.length := (List.getElem?_eq_some_iff.mp hj).1
    exact ⟨b, mem_set hlt b, hab hPc⟩
  · refine ⟨c, mem_iff_getElem?.mpr ⟨i, ?_⟩, hPc⟩
    rw [getElem?_set_ne hij, hi]

private theorem exists_mem_eraseIdx {α : Type} {P : α → Prop} {l : List α} {j : Nat} {a : α}
    (hj : l[j]? = some a) (h : ∃ c ∈ l, P c) (ha : ¬ P a) : ∃ c ∈ l.eraseIdx j, P c := by
  obtain ⟨c, hc, hPc⟩ := h
  obtain ⟨i, hi⟩ := mem_iff_getElem?.mp hc
  have hij : i ≠ j := by
    rintro rfl
    cases hj.symm.trans hi
    exact ha hPc
  exact ⟨c, mem_eraseIdx_iff_getElem?.mpr ⟨i, hij, hi⟩, hPc⟩

/-! #### Dispatches in flight -/

private theorem mem_taken {x : Dispatch} :
    x ∈ taken s ↔
      x ∈ s.active ∨ s.loop.phase.pending = some x ∨ ∃ h ∈ s.hooks, h.decided = some x := by
  simp only [taken, mem_append, Option.mem_toList,
    mem_filterMap, or_assoc]

private theorem mem_taken_of_active {x : Dispatch} (h : x ∈ s.active) : x ∈ taken s :=
  mem_taken.mpr (Or.inl h)

private theorem mem_taken_of_decided {x : Dispatch} {h : Hook} {j : Nat}
    (hj : s.hooks[j]? = some h) (hdecided : h.decided = some x) : x ∈ taken s :=
  mem_taken.mpr (Or.inr (Or.inr ⟨h, mem_of_getElem? hj, hdecided⟩))

private theorem InFlight.of_taken {x : Dispatch} (h : x ∈ taken s) : InFlight s x.1 :=
  Or.inl (mem_map_of_mem h)

/-! #### Views -/

section Views

variable {touched : List Nat} {view : Statuses}

private theorem Known.mono {touched' : List Nat} (h : Known S st touched view)
    (hsub : ∀ x ∈ touched, x ∈ touched') : Known S st touched' view :=
  fun x hx ↦ (h x hx).imp_right fun ⟨hmem, ha⟩ ↦ ⟨hsub x hmem, ha⟩

private theorem Known.setStatus {a : ModuleStatus} (h : Known S st touched view)
    (hx : x ∈ touched) (ha : written a = true) : Known S st touched (setStatus view x a) := by
  intro y hy
  by_cases heq : y = x
  · subst heq
    exact Or.inr ⟨hx, a, Function.update_self .., ha⟩
  · rw [Deploy.setStatus, Function.update_of_ne heq]
    exact h y hy

private theorem Known.reread (h : Known S st s.touched view)
    (hs : Known S st s.touched s.statuses) (x : Nat) :
    Known S st s.touched (reread s view x) := by
  intro y hy
  by_cases heq : y = x
  · subst heq
    rw [Stack.reread, Function.update_self]
    exact hs y hy
  · rw [Stack.reread, Function.update_of_ne heq]
    exact h y hy

private theorem Known.eq_of_notMem (h : Known S st touched view)
    (hx : isApplied st x = true ∨ Needs S st x) (hnot : x ∉ touched) : view x = st x :=
  (h x hx).resolve_right fun hmem ↦ hnot hmem.1

private theorem Known.notInitialized (h : Known S st touched view) (hx : Needs S st x)
    (hview : view x = some notInitialized) : st x = some notInitialized := by
  rcases h x (Or.inr hx) with heq | ⟨-, a, ha, hwritten⟩
  · rw [← heq, hview]
  · cases hview.symm.trans ha
    cases hwritten

end Views

private theorem written_dispatchedStatus (type : TaskType) :
    written (dispatchedStatus type) = true := by
  cases type <;> rfl

/-! #### The tests -/

private theorem mem_pendingModules : m ∈ pendingModules S st ↔
    m ∈ S.modules ∧ m.enabled = true ∧
      (isApplied st m.id = true → varsChanged S m.id (S.currentHash m.id) = true) := by
  unfold pendingModules
  rw [mem_filter, mem_append, mem_filter, mem_filter, Bool.and_eq_true,
    Bool.not_eq_true', ← Bool.not_eq_true]
  tauto

private theorem needs_of_mem (h : m ∈ pendingModules S st) : Needs S st m.id :=
  mem_map_of_mem h

private theorem hasActiveTask_iff : hasActiveTask s x = true ↔ x ∈ s.active.map Prod.fst := by
  simp [hasActiveTask]

private theorem of_queuedFor {status : Option ModuleStatus} {type : TaskType}
    (h : status.bind queuedFor = some type) :
    ∃ a, status = some a ∧ a ≠ destroyed ∧ (type = .apply ∨ type = .init ∧ a = notInitialized) := by
  obtain ⟨a, rfl, ha⟩ := Option.bind_eq_some_iff.mp h
  refine ⟨a, rfl, ?_⟩
  cases a <;> cases ha <;> simp

private theorem of_triggerTest {h : Hook} {type : TaskType} (htest : triggerTest s h m = some type) :
    m.enabled = true ∧ ∃ a, h.view m.id = some a ∧ skipped a = false ∧
      (type = .apply ∨ type = .init ∧ a = notInitialized) := by
  unfold triggerTest at htest
  split at htest
  · cases htest
  · next a ha =>
    obtain ⟨hcond, htype⟩ := Option.ite_none_right_eq_some.mp htest
    simp only [Bool.and_eq_true, Bool.not_eq_true'] at hcond
    refine ⟨hcond.1.1.1.1, a, ha, hcond.1.1.1.2, ?_⟩
    by_cases hinit : a = notInitialized
    · rw [if_pos hinit] at htype
      cases htype
      exact Or.inr ⟨rfl, hinit⟩
    · rw [if_neg hinit] at htype
      cases htype
      exact Or.inl rfl

private theorem hasActiveTask_of_triggerTest {h : Hook} (htest : triggerTest s h m = none)
    (henabled : m.enabled = true) (hopen : isOpen (h.view m.id) = true)
    (hdep : h.completed ∈ m.dependencies) (hready : depsReady h.view m = true) :
    hasActiveTask s m.id = true := by
  obtain ⟨a, ha, hskipped⟩ := (Option.any_eq_true ..).mp hopen
  by_contra hactive
  rw [Bool.not_eq_true] at hactive
  have hcond : (m.enabled && !skipped a && m.dependencies.contains h.completed &&
      depsReady h.view m && !hasActiveTask s m.id) = true := by
    simp [henabled, hskipped, hdep, hready, hactive]
  simp only [triggerTest, ha, if_pos hcond] at htest
  cases htest

/-! #### The run is tracked -/

private theorem touched_mono (h : Steps S s e t) : ∀ x ∈ s.touched, x ∈ t.touched := by
  intro x hx
  cases h <;> first | exact hx | exact mem_append_left _ hx

private theorem finished_mono (h : Steps S s e t) : ∀ x ∈ s.finished, x ∈ t.finished := by
  intro x hx
  cases h <;> first | exact hx | exact mem_append_left _ hx

private theorem Tracked.needs_of_take (I : Tracked S st s) {h : Hook} {type : TaskType}
    (hmem : h ∈ s.hooks) (hm : m ∈ h.todo) (htest : triggerTest s h m = some type) :
    Needs S st m.id := by
  obtain ⟨henabled, a, ha, hskipped, -⟩ := of_triggerTest htest
  by_cases happlied : isApplied st m.id = true
  · rcases I.knownHooks h hmem m.id (Or.inl happlied) with heq | ⟨htouched, -⟩
    · have : a = .applied := by
        rw [ha] at heq
        exact Option.some.inj (heq.trans (beq_iff_eq.mp happlied))
      subst this
      cases hskipped
    · exact I.needs _ htouched
  · exact needs_of_mem (mem_pendingModules.mpr
      ⟨I.todoHooks h hmem m hm, henabled, fun h ↦ absurd h happlied⟩)

private theorem Tracked.step_needs (I : Tracked S st s) (h : Steps S s e t) :
    ∀ x ∈ t.touched, Needs S st x := by
  cases h with
  | decide htodo _ _ =>
    intro x hx
    rcases mem_append.mp hx with hx | hx
    · exact I.needs x hx
    · rw [mem_singleton.mp hx]
      exact needs_of_mem (I.todo _ (htodo ▸ mem_cons_self))
  | take hj htodo _ htest =>
    intro x hx
    rcases mem_append.mp hx with hx | hx
    · exact I.needs x hx
    · rw [mem_singleton.mp hx]
      exact I.needs_of_take (mem_of_getElem? hj) (htodo ▸ mem_cons_self) htest
  | _ => exact I.needs

private theorem Tracked.step_known (I : Tracked S st s) (hok : KeepsUp S st s e)
    (h : Steps S s e t) : Known S st t.touched t.statuses := by
  cases h with
  | decide | take => exact I.known.mono fun x hx ↦ mem_append_left _ hx
  | mark hphase =>
    have hx := hok _ (by rw [hphase]; rfl)
    exact I.known.setStatus (I.kinds _ (mem_taken_of_active hx)).1 (written_dispatchedStatus _)
  | finishInit hx => exact I.known.setStatus (I.kinds _ (mem_taken_of_active hx)).1 rfl
  | applyNow hm => exact I.known.setStatus (I.initialised _ hm).1 rfl
  | finishApply hx => exact I.known.setStatus (I.kinds _ (mem_taken_of_active hx)).1 rfl
  | commit hj hdecided =>
    have hx := (I.kinds _ (mem_taken_of_decided hj hdecided)).1
    exact I.known.setStatus hx (written_dispatchedStatus _)
  | @recover x lastTask hx =>
    intro y hy
    by_cases heq : y = x
    · subst heq
      -- the module does not need to be deployed, so it is applied and not in progress
      have happlied := hy.resolve_right hok
      have hnot : y ∉ s.touched := fun hmem ↦ hok (I.needs y hmem)
      rw [I.known.eq_of_notMem hy hnot, beq_iff_eq.mp happlied] at hx
      cases hx
    · simp only [if_neg heq]
      exact I.known y hy
  | _ => exact I.known

private theorem Tracked.step_knownLoop (I : Tracked S st s) (hok : KeepsUp S st s e)
    (h : Steps S s e t) : Known S st t.touched t.loop.view := by
  have hknown := I.step_known hok h
  cases h with
  | decide | take => exact I.knownLoop.mono fun x hx ↦ mem_append_left _ hx
  | queue | mark => exact hknown
  | refreshLoop x => exact I.knownLoop.reread I.known x
  | _ => exact I.knownLoop

private theorem Tracked.step_knownHooks (I : Tracked S st s) (hok : KeepsUp S st s e)
    (hst : Steps S s e t) : ∀ h ∈ t.hooks, Known S st t.touched h.view := by
  have hknown := I.step_known hok hst
  have hhooks : ∀ h ∈ s.hooks, Known S st t.touched h.view :=
    fun h hh ↦ (I.knownHooks h hh).mono (touched_mono hst)
  cases hst with
  | startHook hx =>
    intro h hh
    simp only at hh
    split at hh
    · rcases mem_append.mp hh with hh | hh
      · exact hhooks h hh
      · rw [mem_singleton.mp hh]
        exact I.known
    · exact hhooks h hh
  | endHook => exact fun h hh ↦ hhooks h (mem_of_mem_eraseIdx hh)
  | overlook hj | take hj =>
    have hh := hhooks _ (mem_of_getElem? hj)
    exact forall_mem_set hhooks hh
  | commit hj => exact forall_mem_set hhooks hknown
  | refreshHook x hj =>
    have hh := hhooks _ (mem_of_getElem? hj)
    exact forall_mem_set hhooks (hh.reread I.known x)
  | _ => exact hhooks

private theorem Tracked.step_todo (I : Tracked S st s) (h : Steps S s e t) :
    ∀ m ∈ t.loop.todo, m ∈ pendingModules S st := by
  cases h with
  | pass htodo | decide htodo => exact fun m hm ↦ I.todo m (htodo ▸ mem_cons_of_mem _ hm)
  | _ => exact I.todo

private theorem Tracked.step_todoHooks (I : Tracked S st s) (h : Steps S s e t) :
    ∀ h ∈ t.hooks, ∀ m ∈ h.todo, m ∈ S.modules := by
  cases h with
  | startHook hx =>
    intro h hh
    simp only at hh
    split at hh
    · rcases mem_append.mp hh with hh | hh
      · exact I.todoHooks h hh
      · rw [mem_singleton.mp hh]
        exact fun m hm ↦ hm
    · exact I.todoHooks h hh
  | endHook => exact fun h hh ↦ I.todoHooks h (mem_of_mem_eraseIdx hh)
  | overlook hj htodo | take hj htodo =>
    refine forall_mem_set I.todoHooks fun m hm ↦ ?_
    exact I.todoHooks _ (mem_of_getElem? hj) m (htodo ▸ mem_cons_of_mem _ hm)
  | commit hj | refreshHook _ hj =>
    have hh := I.todoHooks _ (mem_of_getElem? hj)
    exact forall_mem_set I.todoHooks hh
  | _ => exact I.todoHooks

private theorem mem_taken_of_step {x : Dispatch} (h : Steps S s e t) (hx : x ∈ taken t) :
    x ∈ taken s ∨
      (∃ m, (s.loop.view m.id).bind queuedFor = some x.2 ∧ m ∈ s.loop.todo ∧ x.1 = m.id ∧
        x.1 ∈ t.touched) ∨
      (∃ h ∈ s.hooks, ∃ m ∈ h.todo, triggerTest s h m = some x.2 ∧ x.1 = m.id ∧ x.1 ∈ t.touched) ∨
      x.1 ∈ s.autoApply ∧ x.2 = .apply := by
  rw [mem_taken] at hx ⊢
  cases h with
  | @decide m ms type htodo hphase htype =>
    rcases hx with hx | hx | hx
    · exact Or.inl (Or.inl hx)
    · cases hx
      refine Or.inr (Or.inl ⟨m, htype, htodo ▸ mem_cons_self, rfl, ?_⟩)
      exact mem_append_right _ (mem_singleton_self _)
    · exact Or.inl (Or.inr (Or.inr hx))
  | queue hphase =>
    rcases hx with hx | hx | hx
    · rcases mem_append.mp hx with hx | hx
      · exact Or.inl (Or.inl hx)
      · rw [mem_singleton.mp hx, hphase]
        exact Or.inl (Or.inr (Or.inl rfl))
    · cases hx
    · exact Or.inl (Or.inr (Or.inr hx))
  | mark hphase =>
    rcases hx with hx | hx | hx
    · exact Or.inl (Or.inl hx)
    · cases hx
    · exact Or.inl (Or.inr (Or.inr hx))
  | finishInit | finishApply => exact Or.inl (hx.imp_left mem_of_mem_erase)
  | applyNow hm =>
    rcases hx with hx | hx
    · rcases mem_append.mp hx with hx | hx
      · exact Or.inl (Or.inl hx)
      · rw [mem_singleton.mp hx]
        exact Or.inr (Or.inr (Or.inr ⟨hm, rfl⟩))
    · exact Or.inl (Or.inr hx)
  | startHook =>
    refine Or.inl (hx.imp_right (Or.imp_right fun ⟨h, hh, hd⟩ ↦ ?_))
    simp only at hh
    split at hh
    · rcases mem_append.mp hh with hh | hh
      · exact ⟨h, hh, hd⟩
      · rw [mem_singleton.mp hh] at hd
        cases hd
    · exact ⟨h, hh, hd⟩
  | endHook =>
    refine Or.inl (hx.imp_right (Or.imp_right fun ⟨h, hh, hd⟩ ↦ ?_))
    exact ⟨h, mem_of_mem_eraseIdx hh, hd⟩
  | @overlook _ h _ _ hj | @refreshHook _ h _ hj =>
    refine Or.inl (hx.imp_right (Or.imp_right fun ⟨h', hh, hd⟩ ↦ ?_))
    rcases mem_or_eq_of_mem_set hh with hh | rfl
    · exact ⟨h', hh, hd⟩
    · exact ⟨h, mem_of_getElem? hj, hd⟩
  | @take j h m ms type hj htodo _ htest =>
    rcases hx with hx | hx | ⟨h', hh, hd⟩
    · exact Or.inl (Or.inl hx)
    · exact Or.inl (Or.inr (Or.inl hx))
    · rcases mem_or_eq_of_mem_set hh with hh | rfl
      · exact Or.inl (Or.inr (Or.inr ⟨h', hh, hd⟩))
      · cases hd
        refine Or.inr (Or.inr (Or.inl ⟨h, mem_of_getElem? hj, m, ?_, htest, rfl, ?_⟩))
        · exact htodo ▸ mem_cons_self
        · exact mem_append_right _ (mem_singleton_self _)
  | @commit j h _ hj hdecided =>
    rcases hx with hx | hx | ⟨h', hh, hd⟩
    · rcases mem_append.mp hx with hx | hx
      · exact Or.inl (Or.inl hx)
      · rw [mem_singleton.mp hx]
        exact Or.inl (Or.inr (Or.inr ⟨h, mem_of_getElem? hj, hdecided⟩))
    · exact Or.inl (Or.inr (Or.inl hx))
    · rcases mem_or_eq_of_mem_set hh with hh | rfl
      · exact Or.inl (Or.inr (Or.inr ⟨h', hh, hd⟩))
      · cases hd
  | _ => exact Or.inl hx

private theorem Tracked.step_kinds (I : Tracked S st s) (h : Steps S s e t) :
    ∀ x ∈ taken t, x.1 ∈ t.touched ∧
      (x.2 = .apply ∨ x.2 = .init ∧ st x.1 = some notInitialized) := by
  intro x hx
  rcases mem_taken_of_step h hx with hx | ⟨m, htype, hm, hid, htouched⟩ |
    ⟨h', hh, m, hm, htest, hid, htouched⟩ | ⟨hauto, htype⟩
  · obtain ⟨htouched, hkind⟩ := I.kinds x hx
    exact ⟨touched_mono h _ htouched, hkind⟩
  · obtain ⟨a, ha, -, hkind⟩ := of_queuedFor htype
    refine ⟨htouched, hkind.imp_right fun ⟨hinit, hnot⟩ ↦ ⟨hinit, ?_⟩⟩
    rw [hid]
    exact I.knownLoop.notInitialized (needs_of_mem (I.todo m hm)) (hnot ▸ ha)
  · obtain ⟨-, a, ha, -, hkind⟩ := of_triggerTest htest
    refine ⟨htouched, hkind.imp_right fun ⟨hinit, hnot⟩ ↦ ⟨hinit, ?_⟩⟩
    rw [hid]
    exact (I.knownHooks h' hh).notInitialized (I.needs_of_take hh hm htest) (hnot ▸ ha)
  · exact ⟨touched_mono h _ (I.initialised _ hauto).1, Or.inl htype⟩

private theorem statuses_step (hok : KeepsUp S st s e) (h : Steps S s e t) (hx : Needs S st x) :
    t.statuses x = s.statuses x ∨
      (∃ type, t.statuses x = some (dispatchedStatus type)) ∧ x ∈ t.active.map Prod.fst ∨
      t.statuses x = some initialized ∧ x ∈ t.autoApply ∨
      t.statuses x = some applied ∧ x ∈ t.finished := by
  cases h with
  | @mark y hphase =>
    by_cases heq : x = y.1
    · subst heq
      refine Or.inr (Or.inl ⟨⟨y.2, Function.update_self ..⟩, mem_map_of_mem ?_⟩)
      exact hok _ (by rw [hphase]; rfl)
    · exact Or.inl (Function.update_of_ne heq ..)
  | @finishInit y hy =>
    by_cases heq : x = y
    · subst heq
      refine Or.inr (Or.inr (Or.inl ⟨Function.update_self .., ?_⟩))
      exact mem_append_right _ (mem_singleton_self x)
    · exact Or.inl (Function.update_of_ne heq ..)
  | @applyNow m hm =>
    by_cases heq : x = m.id
    · subst heq
      refine Or.inr (Or.inl ⟨⟨.apply, Function.update_self ..⟩, ?_⟩)
      exact mem_map_of_mem (mem_append_right _ (mem_singleton_self (m.id, _)))
    · exact Or.inl (Function.update_of_ne heq ..)
  | @finishApply y _ _ hy =>
    by_cases heq : x = y
    · subst heq
      refine Or.inr (Or.inr (Or.inr ⟨Function.update_self .., ?_⟩))
      exact mem_append_right _ (mem_singleton_self x)
    · exact Or.inl (Function.update_of_ne heq ..)
  | @commit j h y hj hdecided =>
    by_cases heq : x = y.1
    · subst heq
      refine Or.inr (Or.inl ⟨⟨y.2, Function.update_self ..⟩, ?_⟩)
      exact mem_map_of_mem (mem_append_right _ (mem_singleton_self y))
    · exact Or.inl (Function.update_of_ne heq ..)
  | @recover y lastTask hy =>
    have hne : x ≠ y := fun heq ↦ hok (heq ▸ hx)
    exact Or.inl (if_neg hne)
  | _ => exact Or.inl rfl

private theorem Tracked.step_initialised (I : Tracked S st s) (hok : KeepsUp S st s e)
    (h : Steps S s e t) : ∀ x ∈ t.autoApply, x ∈ t.touched ∧ st x = some notInitialized ∧
      ∃ a, t.statuses x = some a ∧ written a = true := by
  -- a module that has been initialized goes on with statuses that the run writes
  have hkeep : ∀ x ∈ s.autoApply, x ∈ t.touched ∧ st x = some notInitialized ∧
      ∃ a, t.statuses x = some a ∧ written a = true := by
    intro x hx
    obtain ⟨htouched, hinit, hwritten⟩ := I.initialised x hx
    refine ⟨touched_mono h x htouched, hinit, ?_⟩
    rcases statuses_step hok h (I.needs x htouched) with heq | ⟨⟨type, heq⟩, -⟩ | ⟨heq, -⟩ | ⟨heq, -⟩
    · rwa [heq]
    · exact ⟨_, heq, written_dispatchedStatus type⟩
    · exact ⟨_, heq, rfl⟩
    · exact ⟨_, heq, rfl⟩
  cases h with
  | finishInit hx =>
    intro y hy
    rcases mem_append.mp hy with hy | hy
    · exact hkeep y hy
    · rw [mem_singleton.mp hy]
      obtain ⟨htouched, hkind⟩ := I.kinds _ (mem_taken_of_active hx)
      refine ⟨htouched, ?_, initialized, Function.update_self .., rfl⟩
      rcases hkind with hkind | hkind
      · cases hkind
      · exact hkind.2
  | applyNow | applyLater => exact fun x hx ↦ hkeep x (mem_of_mem_erase hx)
  | _ => exact hkeep

private theorem Tracked.step_ended (I : Tracked S st s) (h : Steps S s e t) :
    ∀ x ∈ t.ended, x ∈ t.touched := by
  have hkeep : ∀ x ∈ s.ended, x ∈ t.touched := fun x hx ↦ touched_mono h x (I.ended x hx)
  cases h with
  | finishApply hx =>
    intro y hy
    rcases mem_append.mp hy with hy | hy
    · exact hkeep y hy
    · rw [mem_singleton.mp hy]
      exact (I.kinds _ (mem_taken_of_active hx)).1
  | startHook => exact fun x hx ↦ hkeep x (mem_of_mem_erase hx)
  | _ => exact hkeep

private theorem Tracked.step_completed (I : Tracked S st s) (hst : Steps S s e t) :
    ∀ h ∈ t.hooks, h.completed ∈ t.touched := by
  have hkeep : ∀ h ∈ s.hooks, h.completed ∈ t.touched :=
    fun h hh ↦ touched_mono hst _ (I.completed h hh)
  cases hst with
  | startHook hx =>
    intro h hh
    simp only at hh
    split at hh
    · rcases mem_append.mp hh with hh | hh
      · exact hkeep h hh
      · rw [mem_singleton.mp hh]
        exact I.ended _ hx
    · exact hkeep h hh
  | endHook => exact fun h hh ↦ hkeep h (mem_of_mem_eraseIdx hh)
  | overlook hj | take hj | commit hj | refreshHook _ hj =>
    have hh := hkeep _ (mem_of_getElem? hj)
    exact forall_mem_set hkeep hh
  | _ => exact hkeep

private theorem Tracked.step_alive (I : Tracked S st s) (h : Steps S s e t) :
    t.touched ≠ [] → ∃ x a, Needs S st x ∧ st x = some a ∧ a ≠ destroyed := by
  cases h with
  | @decide m ms type htodo hphase htype =>
    intro _
    by_cases hnil : s.touched = []
    · -- the first module is queued by its status from the start
      have hx := needs_of_mem (I.todo m (htodo ▸ mem_cons_self))
      obtain ⟨a, ha, hne, -⟩ := of_queuedFor htype
      refine ⟨m.id, a, hx, ?_, hne⟩
      rw [← I.knownLoop.eq_of_notMem (Or.inr hx) (hnil ▸ not_mem_nil), ha]
    · exact I.alive hnil
  | take hj => exact fun _ ↦ I.alive (ne_nil_of_mem (I.completed _ (mem_of_getElem? hj)))
  | _ => exact I.alive

private theorem Tracked.step_applied (I : Tracked S st s) (hok : KeepsUp S st s e)
    (h : Steps S s e t) : ∀ x, Needs S st x → isApplied t.statuses x = true →
      isApplied st x = true ∨ x ∈ t.finished := by
  intro x hx happlied
  rcases statuses_step hok h hx with heq | ⟨⟨type, heq⟩, -⟩ | ⟨heq, -⟩ | ⟨-, hfinished⟩
  · rw [isApplied, heq] at happlied
    exact (I.applied x hx happlied).imp_right (finished_mono h x)
  · rw [isApplied, heq] at happlied
    cases type <;> cases happlied
  · rw [isApplied, heq] at happlied
    cases happlied
  · exact Or.inr hfinished

private theorem Tracked.step_running (I : Tracked S st s) (hok : KeepsUp S st s e)
    (h : Steps S s e t) : ∀ x a, Needs S st x → t.statuses x = some a → transitional a = true →
      x ∈ t.active.map Prod.fst ∨ t.statuses x = st x := by
  intro x a hx ha htrans
  rcases statuses_step hok h hx with heq | ⟨-, hactive⟩ | ⟨heq, -⟩ | ⟨heq, -⟩
  · rw [heq] at ha ⊢
    refine (I.running x a hx ha htrans).imp_left fun hactive ↦ ?_
    -- a task that ends leaves a status that is not in progress
    cases h with
    | @finishInit y hy | @finishApply y _ _ hy =>
      have hne : x ≠ y := by
        rintro rfl
        rw [← heq] at ha
        cases (Function.update_self ..).symm.trans ha
        cases htrans
      obtain ⟨z, hz, rfl⟩ := mem_map.mp hactive
      refine mem_map_of_mem ((mem_erase_of_ne ?_).mpr hz)
      exact fun heq ↦ hne (congrArg Prod.fst heq)
    | queue | applyNow | commit =>
      rw [map_append]
      exact mem_append_left _ hactive
    | _ => exact hactive
  · exact Or.inl hactive
  · cases heq.symm.trans ha
    cases htrans
  · cases heq.symm.trans ha
    cases htrans

theorem Tracked.step (I : Tracked S st s) (hok : KeepsUp S st s e) (h : Steps S s e t) :
    Tracked S st t where
  needs := I.step_needs h
  known := I.step_known hok h
  knownLoop := I.step_knownLoop hok h
  knownHooks := I.step_knownHooks hok h
  todo := I.step_todo h
  todoHooks := I.step_todoHooks h
  kinds := I.step_kinds h
  initialised := I.step_initialised hok h
  ended := I.step_ended h
  completed := I.step_completed h
  alive := I.step_alive h
  applied := I.step_applied hok h
  running := I.step_running hok h

theorem tracked_start (S : StackSpec H) (st : Statuses) : Tracked S st (start S st) where
  needs := nofun
  known := fun _ _ ↦ Or.inl rfl
  knownLoop := fun _ _ ↦ Or.inl rfl
  knownHooks := nofun
  todo := fun _ hm ↦ hm
  todoHooks := nofun
  kinds := nofun
  initialised := nofun
  ended := nofun
  completed := nofun
  alive := fun h ↦ absurd rfl h
  applied := fun _ _ h ↦ Or.inl h
  running := fun _ _ _ _ _ ↦ Or.inr rfl

/-! #### Nothing is dropped -/

private theorem InFlight.of_active (h : x ∈ s.active.map Prod.fst) : InFlight s x := by
  obtain ⟨y, hy, rfl⟩ := mem_map.mp h
  exact InFlight.of_taken (mem_taken_of_active hy)

private theorem mem_taken_step {x : Dispatch} (h : Steps S s e t) (hx : x ∈ taken s) :
    x ∈ taken t ∨ e = .finishInit x.1 ∧ x.2 = .init ∨
      (∃ current saved, e = .finishApply x.1 current saved) ∧ x.2 = .apply := by
  rw [mem_taken] at hx ⊢
  cases h with
  | decide htodo hphase =>
    rcases hx with hx | hx | hx
    · exact Or.inl (Or.inl hx)
    · rw [hphase] at hx
      cases hx
    · exact Or.inl (Or.inr (Or.inr hx))
  | queue hphase =>
    rcases hx with hx | hx | hx
    · exact Or.inl (Or.inl (mem_append_left _ hx))
    · rw [hphase] at hx
      cases hx
      exact Or.inl (Or.inl (mem_append_right _ (mem_singleton_self x)))
    · exact Or.inl (Or.inr (Or.inr hx))
  | mark hphase =>
    rcases hx with hx | hx | hx
    · exact Or.inl (Or.inl hx)
    · rw [hphase] at hx
      cases hx
    · exact Or.inl (Or.inr (Or.inr hx))
  | @finishInit y hy =>
    by_cases heq : x = (y, .init)
    · subst heq
      exact Or.inr (Or.inl ⟨rfl, rfl⟩)
    · exact Or.inl (hx.imp_left (mem_erase_of_ne heq).mpr)
  | @finishApply y _ _ hy =>
    by_cases heq : x = (y, .apply)
    · subst heq
      exact Or.inr (Or.inr ⟨⟨_, _, rfl⟩, rfl⟩)
    · exact Or.inl (hx.imp_left (mem_erase_of_ne heq).mpr)
  | applyNow => exact Or.inl (hx.imp_left (mem_append_left _))
  | startHook =>
    refine Or.inl (hx.imp_right (Or.imp_right fun ⟨h, hh, hd⟩ ↦ ⟨h, ?_, hd⟩))
    simp only
    split
    · exact mem_append_left _ hh
    · exact hh
  | endHook hj htodo hdecided =>
    refine Or.inl (hx.imp_right (Or.imp_right fun hx ↦ exists_mem_eraseIdx hj hx ?_))
    rw [hdecided]
    exact nofun
  | overlook hj | refreshHook _ hj =>
    exact Or.inl (hx.imp_right (Or.imp_right fun hx ↦ exists_mem_set hj hx id))
  | take hj htodo hdecided =>
    refine Or.inl (hx.imp_right (Or.imp_right fun hx ↦ exists_mem_set hj hx ?_))
    rw [hdecided]
    exact nofun
  | @commit j h y hj hdecided =>
    rcases hx with hx | hx | hx
    · exact Or.inl (Or.inl (mem_append_left _ hx))
    · exact Or.inl (Or.inr (Or.inl hx))
    · by_cases heq : x = y
      · subst heq
        exact Or.inl (Or.inl (mem_append_right _ (mem_singleton_self x)))
      · refine Or.inl (Or.inr (Or.inr (exists_mem_set hj hx fun hx ↦ ?_)))
        exact absurd (Option.some.inj (hx.symm.trans hdecided)) heq
  | _ => exact Or.inl hx

private theorem InFlight.step (hflight : InFlight s x) (h : Steps S s e t) :
    InFlight t x ∨ Done t x ∨
      x ∈ s.autoApply ∧ t = { s with autoApply := s.autoApply.erase x } ∧
        ∃ m ∈ S.modules, m.id = x ∧ canExecute S s.statuses m = false := by
  rcases hflight with hx | hx
  · obtain ⟨y, hy, rfl⟩ := mem_map.mp hx
    rcases mem_taken_step h hy with hy | ⟨rfl, -⟩ | ⟨⟨current, saved, rfl⟩, -⟩
    · exact Or.inl (InFlight.of_taken hy)
    · cases h with
      | finishInit => exact Or.inl (Or.inr (mem_append_right _ (mem_singleton_self _)))
    · cases h with
      | finishApply =>
        refine Or.inr (Or.inl ⟨mem_append_right _ (mem_singleton_self _), ?_⟩)
        exact beq_iff_eq.mpr (Function.update_self ..)
  · cases h with
    | finishInit => exact Or.inl (Or.inr (mem_append_left _ hx))
    | @applyNow m hm =>
      by_cases heq : x = m.id
      · subst heq
        refine Or.inl (InFlight.of_taken (x := (m.id, .apply)) (mem_taken_of_active ?_))
        exact mem_append_right _ (mem_singleton_self _)
      · exact Or.inl (Or.inr ((mem_erase_of_ne heq).mpr hx))
    | @applyLater m hmem hm hcan =>
      by_cases heq : x = m.id
      · subst heq
        exact Or.inr (Or.inr ⟨hx, rfl, m, hmem, rfl, hcan⟩)
      · exact Or.inl (Or.inr ((mem_erase_of_ne heq).mpr hx))
    | _ => exact Or.inl (Or.inr hx)

private theorem depsReady_mono {view view' : Statuses} (hready : depsReady view m = true)
    (h : ∀ d ∈ m.dependencies, isApplied view d = true → isApplied view' d = true) :
    depsReady view' m = true :=
  all_eq_true.mpr fun d hd ↦ h d hd (all_eq_true.mp hready d hd)

private theorem depsReady_reread {view : Statuses} (hview : depsReady view m = true)
    (hready : depsReady s.statuses m = true) : depsReady (reread s view x) m = true := by
  refine depsReady_mono hview fun d hd happlied ↦ ?_
  by_cases heq : d = x
  · subst heq
    rw [isApplied, reread, Function.update_self]
    exact all_eq_true.mp hready d hd
  · rwa [isApplied, reread, Function.update_of_ne heq]

private theorem ready_step (I : Tracked S st s) (hprov : Provided S st) (hok : KeepsUp S st s e)
    (h : Steps S s e t) (hm : m ∈ pendingModules S st) (hready : depsReady t.statuses m = true) :
    depsReady s.statuses m = true ∨ ∃ x ∈ t.ended, x ∈ m.dependencies := by
  cases h with
  | mark | commit =>
    exact Or.inl (depsReady_mono hready fun d _ ↦
      isApplied_of_setStatus (dispatchedStatus_ne_applied _))
  | finishInit | applyNow =>
    exact Or.inl (depsReady_mono hready fun d _ ↦ isApplied_of_setStatus (by decide))
  | @finishApply x _ _ hx =>
    by_cases hdep : x ∈ m.dependencies
    · exact Or.inr ⟨x, mem_append_right _ (mem_singleton_self x), hdep⟩
    · refine Or.inl (depsReady_mono hready fun d hd happlied ↦ ?_)
      have hne : d ≠ x := fun heq ↦ hdep (heq ▸ hd)
      simpa only [isApplied, setStatus, Function.update_of_ne hne] using happlied
  | @recover x lastTask hx =>
    refine Or.inl (depsReady_mono hready fun d hd happlied ↦ ?_)
    by_cases heq : d = x
    · subst heq
      have hd := (hprov m hm d hd).1
      have hnot : d ∉ s.touched := fun hmem ↦ hok (I.needs d hmem)
      rw [isApplied, I.known.eq_of_notMem hd hnot]
      exact hd.resolve_right hok
    · simpa only [isApplied, if_neg heq] using happlied
  | _ => exact Or.inl hready

private theorem ended_step (hchains : chains s.stackStatus = true) (h : Steps S s e t)
    (hm : m ∈ S.modules) (hready : depsReady t.statuses m = true)
    (hopen : isOpen (t.statuses m.id) = true) (hx : x ∈ s.ended) (hdep : x ∈ m.dependencies) :
    x ∈ t.ended ∨ ∃ h ∈ t.hooks, Coming h m := by
  cases h with
  | finishApply => exact Or.inl (mem_append_left _ hx)
  | @startHook y hy =>
    by_cases heq : x = y
    · subst heq
      have happlied : isApplied s.statuses x = true := all_eq_true.mp hready x hdep
      refine Or.inr ⟨⟨x, s.statuses, S.modules, none⟩, ?_, hdep, hm, hready, hopen⟩
      simp only [hchains, happlied, Bool.and_self, if_true]
      exact mem_append_right _ (mem_singleton_self _)
    · exact Or.inl ((mem_erase_of_ne heq).mpr hx)
  | _ => exact Or.inl hx

private theorem coming_step (h : Steps S s e t) (hm : m ∈ pendingModules S st)
    (hready : depsReady t.statuses m = true) (hopen : isOpen (t.statuses m.id) = true)
    (hcoming : ∃ h ∈ s.hooks, Coming h m) : (∃ h ∈ t.hooks, Coming h m) ∨ InFlight t m.id := by
  cases h with
  | startHook =>
    obtain ⟨h, hh, hcoming⟩ := hcoming
    refine Or.inl ⟨h, ?_, hcoming⟩
    simp only
    split
    · exact mem_append_left _ hh
    · exact hh
  | endHook hj htodo =>
    refine Or.inl (exists_mem_eraseIdx hj hcoming fun hc ↦ ?_)
    have := hc.2.1
    rw [htodo] at this
    cases this
  | @overlook j h k ms hj htodo hdecided htest =>
    by_cases hk : k = m ∧ Coming h m
    · obtain ⟨rfl, hdep, -, hview, hopen'⟩ := hk
      have henabled := (mem_pendingModules.mp hm).2.1
      have hactive := hasActiveTask_of_triggerTest htest henabled hopen' hdep hview
      exact Or.inr (InFlight.of_active (hasActiveTask_iff.mp hactive))
    · refine Or.inl (exists_mem_set hj hcoming fun hc ↦ ⟨hc.1, ?_, hc.2.2⟩)
      have hmem := hc.2.1
      rw [htodo] at hmem
      exact (mem_cons.mp hmem).resolve_left fun heq ↦ hk ⟨heq.symm, hc⟩
  | @take j h k ms type hj htodo hdecided htest =>
    by_cases hk : k = m
    · subst hk
      have hlt := (List.getElem?_eq_some_iff.mp hj).1
      refine Or.inr (InFlight.of_taken (x := (k.id, type)) (mem_taken.mpr (Or.inr (Or.inr ?_))))
      exact ⟨_, mem_set hlt _, rfl⟩
    · refine Or.inl (exists_mem_set hj hcoming fun hc ↦ ⟨hc.1, ?_, hc.2.2⟩)
      have hmem := hc.2.1
      rw [htodo] at hmem
      exact (mem_cons.mp hmem).resolve_left fun heq ↦ hk heq.symm
  | commit hj =>
    exact Or.inl (exists_mem_set hj hcoming fun hc ↦ ⟨hc.1, hc.2.1, hready, hopen⟩)
  | @refreshHook j h x hj =>
    refine Or.inl (exists_mem_set hj hcoming fun hc ↦ ⟨hc.1, hc.2.1, ?_, ?_⟩)
    · exact depsReady_reread hc.2.2.1 hready
    · by_cases heq : m.id = x
      · subst heq
        simpa only [reread, Function.update_self] using hopen
      · simpa only [reread, Function.update_of_ne heq] using hc.2.2.2
  | _ => exact Or.inl hcoming

private theorem Woken.step (hw : Woken s m) (I : Tracked S st s) (hprov : Provided S st)
    (hchains : chains s.stackStatus = true) (hok : KeepsUp S st s e) (h : Steps S s e t)
    (hm : m ∈ pendingModules S st) (hopen : isOpen (t.statuses m.id) = true) :
    Woken t m ∨ InFlight t m.id := by
  by_cases hready : depsReady t.statuses m = true
  · rcases ready_step I hprov hok h hm hready with hbefore | hended
    · rcases hw with hnot | ⟨x, hx, hdep⟩ | hcoming
      · cases hnot.symm.trans hbefore
      · have hmem := (mem_pendingModules.mp hm).1
        rcases ended_step hchains h hmem hready hopen hx hdep with hx | hcoming
        · exact Or.inl (Or.inr (Or.inl ⟨x, hx, hdep⟩))
        · exact Or.inl (Or.inr (Or.inr hcoming))
      · exact (coming_step h hm hready hopen hcoming).imp_left fun h ↦ Or.inr (Or.inr h)
    · exact Or.inl (Or.inr (Or.inl hended))
  · exact Or.inl (Or.inl (Bool.not_eq_true _ ▸ hready))

/-- A module ahead of the loop of `run_deploy` stays there, is taken up, or is deferred with
a status that the hooks take up. -/
private theorem todo_step (I : Tracked S st s) (hok : KeepsUp S st s e) (h : Steps S s e t)
    (hm : m ∈ pendingModules S st) (hnot : m.id ∉ s.touched) (htodo : m ∈ s.loop.todo) :
    m.id ∉ t.touched ∧ m ∈ t.loop.todo ∨ InFlight t m.id ∨
      isOpen (st m.id) = true ∧ depsReady s.loop.view m = false ∧
        ∃ ms, t = { s with loop := { s.loop with todo := ms } } := by
  cases h with
  | @pass k ms hk hpass =>
    by_cases heq : k = m
    · subst heq
      have hview := I.knownLoop.eq_of_notMem (Or.inr (needs_of_mem hm)) hnot
      have hfirst := hok k (hk ▸ rfl) hnot
      rcases hpass with hactive | hdeps | hnone
      · -- a module with a task has been taken up
        obtain ⟨y, hy, hid⟩ := mem_map.mp (hasActiveTask_iff.mp hactive)
        exact absurd (hid ▸ (I.kinds y (mem_taken_of_active hy)).1) hnot
      · rw [hdeps, hview] at hfirst
        exact Or.inr (Or.inr ⟨hfirst, hdeps, ms, rfl⟩)
      · by_cases hdeps : depsReady s.loop.view k = true
        · rw [if_pos hdeps, hnone] at hfirst
          cases hfirst
        · rw [if_neg hdeps, hview] at hfirst
          exact Or.inr (Or.inr ⟨hfirst, Bool.eq_false_iff.mpr hdeps, ms, rfl⟩)
    · rw [hk] at htodo
      exact Or.inl ⟨hnot, (mem_cons.mp htodo).resolve_left fun h ↦ heq h.symm⟩
  | @decide k ms type hk hphase htype =>
    by_cases heq : k.id = m.id
    · refine Or.inr (Or.inl (InFlight.of_taken (x := (m.id, type)) (mem_taken.mpr ?_)))
      exact Or.inr (Or.inl (heq ▸ rfl))
    · refine Or.inl ⟨?_, ?_⟩
      · intro hmem
        rcases mem_append.mp hmem with hmem | hmem
        · exact hnot hmem
        · exact heq (mem_singleton.mp hmem).symm
      · rw [hk] at htodo
        exact (mem_cons.mp htodo).resolve_left fun h ↦ heq (h ▸ rfl)
  | @take j h k ms type hj =>
    by_cases heq : k.id = m.id
    · have hlt := (List.getElem?_eq_some_iff.mp hj).1
      refine Or.inr (Or.inl (InFlight.of_taken (x := (m.id, type)) (mem_taken.mpr ?_)))
      exact Or.inr (Or.inr ⟨_, mem_set hlt _, heq ▸ rfl⟩)
    · refine Or.inl ⟨?_, htodo⟩
      intro hmem
      rcases mem_append.mp hmem with hmem | hmem
      · exact hnot hmem
      · exact heq (mem_singleton.mp hmem).symm
  | _ => exact Or.inl ⟨hnot, htodo⟩

/-- The loop of `run_deploy` sees dependencies ready as long as they are. -/
private theorem view_step (h : Steps S s e t) (hview : depsReady s.loop.view m = true)
    (hready : depsReady t.statuses m = true) : depsReady t.loop.view m = true := by
  cases h with
  | queue | mark => exact hready
  | refreshLoop x => exact depsReady_reread hview hready
  | _ => exact hview

private theorem Cared.step_inFlight (I : Tracked S st s) (hprov : Provided S st)
    (h : Steps S s e t) (hm : m ∈ pendingModules S st) (hflight : InFlight s m.id) :
    Cared st t m := by
  rcases hflight.step h with hflight | hdone | ⟨hauto, rfl, k, hk, hid, hcan⟩
  · exact .inFlight hflight
  · exact .done hdone
  · -- the auto-apply is put off: the module is initialized and waits, unless another task is at
    -- work on it
    have hneeds := needs_of_mem hm
    obtain ⟨-, hinit, a, ha, hwritten⟩ := I.initialised _ hauto
    have hmk : k = m := by
      exact inj_on_of_nodup_map S.ids_nodup hk (mem_pendingModules.mp hm).1 hid
    subst hmk
    have hrunning : transitional a = true → Cared st
        { s with autoApply := s.autoApply.erase k.id } k := by
      intro htrans
      rcases I.running _ a hneeds ha htrans with hactive | heq
      · exact .inFlight (InFlight.of_active hactive)
      · rw [ha, hinit] at heq
        cases heq
        cases htrans
    cases a with
    | initializing => exact hrunning rfl
    | applying => exact hrunning rfl
    | initialized =>
      refine .waiting (by rw [ha]; rfl) (Or.inl ?_)
      rw [← Bool.not_eq_true]
      intro hready
      refine absurd ?_ (Bool.eq_false_iff.mp hcan)
      refine all_eq_true.mpr fun d hd ↦ ?_
      rw [all_eq_true.mp hready d hd, (hprov k hm d hd).2 hinit]
      rfl
    | applied =>
      have happlied : isApplied s.statuses k.id = true := beq_iff_eq.mpr ha
      refine .done ⟨(I.applied _ hneeds happlied).resolve_left ?_, happlied⟩
      rw [isApplied, hinit]
      simp
    | _ => cases hwritten

private theorem Cared.step (hcared : Cared st s m) (I : Tracked S st s) (hprov : Provided S st)
    (hchains : chains s.stackStatus = true) (hok : KeepsUp S st s e) (h : Steps S s e t)
    (hm : m ∈ pendingModules S st) : Cared st t m := by
  have hneeds := needs_of_mem hm
  cases hcared with
  | ahead hnot htodo hwoken =>
    rcases todo_step I hok h hm hnot htodo with ⟨hnot', htodo'⟩ | hflight | ⟨hopen, hview, ms, rfl⟩
    · by_cases hflight : InFlight t m.id
      · exact .inFlight hflight
      refine .ahead hnot' htodo' fun hopen ↦ ?_
      by_cases hready : depsReady t.statuses m = true
      · have hstatus := (I.step hok h).known.eq_of_notMem (Or.inr hneeds) hnot'
        rcases hwoken hopen with hwoken | hview
        · refine Or.inl ((hwoken.step I hprov hchains hok h hm ?_).resolve_right hflight)
          rwa [hstatus]
        · exact Or.inr (view_step h hview hready)
      · exact Or.inl (Or.inl (Bool.eq_false_iff.mpr hready))
    · exact .inFlight hflight
    · refine .waiting ?_ ((hwoken hopen).resolve_right (Bool.eq_false_iff.mp hview))
      rw [I.known.eq_of_notMem (Or.inr hneeds) hnot]
      exact hopen
  | inFlight hflight => exact Cared.step_inFlight I hprov h hm hflight
  | done hdone =>
    rcases statuses_step hok h hneeds with heq | ⟨-, hactive⟩ | ⟨-, hauto⟩ | ⟨heq, hfinished⟩
    · refine .done ⟨finished_mono h _ hdone.1, ?_⟩
      rw [isApplied, heq]
      exact hdone.2
    · exact .inFlight (InFlight.of_active hactive)
    · exact .inFlight (Or.inr hauto)
    · exact .done ⟨hfinished, beq_iff_eq.mpr heq⟩
  | waiting hopen hwoken =>
    rcases statuses_step hok h hneeds with heq | ⟨-, hactive⟩ | ⟨-, hauto⟩ | ⟨heq, hfinished⟩
    · have hopen' : isOpen (t.statuses m.id) = true := by rwa [heq]
      rcases hwoken.step I hprov hchains hok h hm hopen' with hwoken | hflight
      · exact .waiting hopen' hwoken
      · exact .inFlight hflight
    · exact .inFlight (InFlight.of_active hactive)
    · exact .inFlight (Or.inr hauto)
    · exact .done ⟨hfinished, beq_iff_eq.mpr heq⟩

private theorem Settled.step (hsettled : Settled st s m) (I : Tracked S st s)
    (hok : KeepsUp S st s e) (h : Steps S s e t) (hm : m ∈ pendingModules S st) :
    Settled st t m := by
  rcases hsettled with hfinished | ⟨hopen, ⟨hnot, htodo⟩ | hflight⟩
  · exact Or.inl (finished_mono h _ hfinished)
  · rcases todo_step I hok h hm hnot htodo with hahead | hflight | ⟨hopen', -⟩
    · exact Or.inr ⟨hopen, Or.inl hahead⟩
    · exact Or.inr ⟨hopen, Or.inr hflight⟩
    · cases hopen.symm.trans hopen'
  · rcases hflight.step h with hflight | hdone | ⟨hauto, -⟩
    · exact Or.inr ⟨hopen, Or.inr hflight⟩
    · exact Or.inl hdone.1
    · rw [(I.initialised _ hauto).2.1] at hopen
      cases hopen

/-! #### The status of the stack -/

omit [DecidableEq H] in
private theorem chains_progress (hchains : chains s.stackStatus = true)
    (halive : ∃ m ∈ S.modules, ∃ a, s.statuses m.id = some a ∧ a ≠ destroyed) :
    chains (progress S s) = true ∨ ∀ m ∈ S.modules, ∀ a, s.statuses m.id = some a → a = applied := by
  obtain ⟨m, hm, a, ha, hne⟩ := halive
  have hmem : a ∈ S.modules.filterMap fun m ↦ s.statuses m.id :=
    mem_filterMap.mpr ⟨m, hm, ha⟩
  have hdestroying : s.stackStatus ≠ .destroying := by
    rintro heq
    rw [heq] at hchains
    cases hchains
  have hdestroyed : (S.modules.filterMap fun m ↦ s.statuses m.id).all (· == destroyed) ≠ true :=
    fun hall ↦ hne (beq_iff_eq.mp (all_eq_true.mp hall a hmem))
  rw [progress, Destroy.stackProgress, if_neg (ne_nil_of_mem hmem), if_neg hdestroying,
    if_neg hdestroyed, Destroy.deployProgress]
  split
  · exact Or.inl rfl
  · split
    · next hall =>
      refine Or.inr fun k hk b hb ↦ beq_iff_eq.mp (all_eq_true.mp hall b ?_)
      exact mem_filterMap.mpr ⟨k, hk, hb⟩
    · split
      · exact Or.inl rfl
      · split
        · exact Or.inl rfl
        · exact Or.inl hchains

private theorem Tracked.exists_alive (I : Tracked S st s) (htouched : s.touched ≠ []) :
    ∃ m ∈ S.modules, ∃ a, s.statuses m.id = some a ∧ a ≠ destroyed := by
  obtain ⟨x, a, hx, ha, hne⟩ := I.alive htouched
  obtain ⟨m, hm, rfl⟩ := mem_map.mp hx
  refine ⟨m, (mem_pendingModules.mp hm).1, ?_⟩
  rcases I.known m.id (Or.inr hx) with heq | ⟨-, b, hb, hwritten⟩
  · exact ⟨a, heq.trans ha, hne⟩
  · refine ⟨b, hb, ?_⟩
    rintro rfl
    cases hwritten

private theorem chains_step (I : Tracked S st s) (hchains : chains s.stackStatus = true)
    (h : Steps S s e t) :
    chains t.stackStatus = true ∨
      ∀ m ∈ S.modules, ∀ a, t.statuses m.id = some a → a = applied := by
  cases h with
  | startHook hx => exact chains_progress hchains (I.exists_alive (ne_nil_of_mem (I.ended _ hx)))
  | poll htouched => exact chains_progress hchains (I.exists_alive htouched)
  | _ => exact Or.inl hchains

/-- Once all modules are applied, what is left is left to `run_deploy` and to tasks. -/
private theorem Cared.settled (hcared : Cared st s m) (I : Tracked S st s)
    (hm : m ∈ pendingModules S st) (hall : ∀ a, s.statuses m.id = some a → a = applied) :
    Settled st s m := by
  have hneeds := needs_of_mem hm
  have hclosed : isOpen (s.statuses m.id) = false := by
    cases hstatus : s.statuses m.id with
    | none => rfl
    | some a =>
      rw [hall a hstatus]
      rfl
  cases hcared with
  | ahead hnot htodo _ =>
    rw [I.known.eq_of_notMem (Or.inr hneeds) hnot] at hclosed
    exact Or.inr ⟨hclosed, Or.inl ⟨hnot, htodo⟩⟩
  | inFlight hflight =>
    rcases I.known _ (Or.inr hneeds) with heq | ⟨-, a, ha, -⟩
    · exact Or.inr ⟨heq ▸ hclosed, Or.inr hflight⟩
    · have happlied : isApplied s.statuses m.id = true := by
        rw [isApplied, ha, hall a ha]
        rfl
      rcases I.applied _ hneeds happlied with hst | hfinished
      · refine Or.inr ⟨?_, Or.inr hflight⟩
        rw [beq_iff_eq.mp hst]
        rfl
      · exact Or.inl hfinished
  | done hdone => exact Or.inl hdone.1
  | waiting hopen _ => cases hclosed.symm.trans hopen

theorem Complete.step (hc : Complete S st s) (I : Tracked S st s) (hprov : Provided S st)
    (hok : KeepsUp S st s e) (h : Steps S s e t) : Complete S st t := by
  rcases hc with ⟨hchains, hcared⟩ | hsettled
  · have hcared' : ∀ m ∈ pendingModules S st, Cared st t m :=
      fun m hm ↦ (hcared m hm).step I hprov hchains hok h hm
    rcases chains_step I hchains h with hchains' | hall
    · exact Or.inl ⟨hchains', hcared'⟩
    · refine Or.inr fun m hm ↦ (hcared' m hm).settled (I.step hok h) hm ?_
      exact hall m (mem_pendingModules.mp hm).1
  · exact Or.inr fun m hm ↦ (hsettled m hm).step I hok h hm

theorem complete_start (S : StackSpec H) (st : Statuses) : Complete S st (start S st) := by
  refine Or.inl ⟨rfl, fun m hm ↦ .ahead not_mem_nil hm fun _ ↦ ?_⟩
  by_cases hready : depsReady st m = true
  · exact Or.inr hready
  · exact Or.inl (Or.inl (Bool.eq_false_iff.mpr hready))

/-! #### The end of the run -/

private theorem Quiescent.not_inFlight (hq : Quiescent s) : ¬ InFlight s x := by
  obtain ⟨-, hphase, hactive, -, hhooks, hauto⟩ := hq
  rintro (hx | hx)
  · obtain ⟨y, hy, -⟩ := mem_map.mp hx
    rw [mem_taken, hactive, hphase, hhooks] at hy
    rcases hy with hy | hy | ⟨_, hy, _⟩ <;> cases hy
  · rw [hauto] at hx
    cases hx

private theorem done_of_quiescent (I : Tracked S st s) (hprov : Provided S st) (hq : Quiescent s)
    (hcared : ∀ m ∈ pendingModules S st, Cared st s m) :
    ∀ m ∈ pendingModules S st, Done s m.id := by
  obtain ⟨rank, hrank⟩ := S.acyclic
  intro m
  induction hn : rank m.id using Nat.strongRecOn generalizing m with
  | _ n ih =>
    intro hm
    cases hcared m hm with
    | ahead _ htodo _ =>
      rw [hq.1] at htodo
      cases htodo
    | inFlight hflight => exact absurd hflight hq.not_inFlight
    | done hdone => exact hdone
    | waiting _ hwoken =>
      rcases hwoken with hdeps | ⟨x, hx, -⟩ | ⟨h, hh, -⟩
      · refine absurd ?_ (Bool.eq_false_iff.mp hdeps)
        refine all_eq_true.mpr fun d hd ↦ ?_
        have hdep := (hprov m hm d hd).1
        by_cases hneeds : Needs S st d
        · obtain ⟨k, hk, rfl⟩ := mem_map.mp hneeds
          have hlt := hrank m (mem_pendingModules.mp hm).1 k (mem_pendingModules.mp hk).1 hd
          exact (ih _ (hn ▸ hlt) k rfl hk).2
        · have hnot : d ∉ s.touched := fun hmem ↦ hneeds (I.needs d hmem)
          rw [isApplied, I.known.eq_of_notMem hdep hnot]
          exact hdep.resolve_right hneeds
      · rw [hq.2.2.2.1] at hx
        cases hx
      · rw [hq.2.2.2.2.1] at hh
        cases hh

private theorem outdated_step (I : Tracked S st s) (hdated : Dated S st) (h : Steps S s e t)
    (hs : s.outdated = []) : t.outdated = [] := by
  cases h with
  | @finishApply x current saved hx hsaved =>
    obtain ⟨m, hm, rfl⟩ := mem_map.mp (I.needs _ (I.kinds _ (mem_taken_of_active hx)).1)
    obtain ⟨hmem, henabled, -⟩ := mem_pendingModules.mp hm
    refine (if_neg ?_).trans hs
    rw [Bool.and_eq_true, bne_iff_ne]
    rintro ⟨hsave, hne⟩
    obtain ⟨hplan, hvalid⟩ := hsaved hsave
    obtain ⟨p, hp⟩ := Option.ne_none_iff_exists'.mp hplan
    have hstored := (hdated m hmem henabled).2 p hp
    rw [varsChanged, hstored] at hvalid
    have hcurrent : current = p := by simpa using hvalid
    exact hne (hcurrent ▸ hp)
  | _ => exact hs

private theorem Complete.redeployed (hc : Complete S st s) (I : Tracked S st s)
    (hprov : Provided S st) (hdated : Dated S st) (hs : s.outdated = []) (hq : Quiescent s) :
    Redeployed S st s := by
  intro m hm henabled
  by_cases hpending : m ∈ pendingModules S st
  · refine Or.inl ⟨?_, hs ▸ not_mem_nil⟩
    rcases hc with ⟨-, hcared⟩ | hsettled
    · exact (done_of_quiescent I hprov hq hcared m hpending).1
    · rcases hsettled m hpending with hfinished | ⟨-, ⟨-, htodo⟩ | hflight⟩
      · exact hfinished
      · rw [hq.1] at htodo
        cases htodo
      · exact absurd hflight hq.not_inFlight
  · have hunchanged : isApplied st m.id = true ∧
        varsChanged S m.id (S.currentHash m.id) = false := by
      rw [mem_pendingModules] at hpending
      simpa [hm, henabled] using hpending
    exact Or.inr ⟨hunchanged.1, (hdated m hm henabled).1 hunchanged.1 hunchanged.2⟩

end Runs

/-- The module 2 on top of the module 1, both with changed variables if they are applied. -/
def twoModules : StackSpec Nat where
  modules := [⟨1, true, []⟩, ⟨2, true, [1]⟩]
  ids_nodup := by decide
  acyclic := ⟨id, by decide⟩
  storedHash := fun _ ↦ some 0
  currentHash := fun _ ↦ 1
  appliedHash := fun _ ↦ 0
  savedPlan := fun _ ↦ none
  outputsCaptured := fun _ ↦ true

/-- A first deploy: the module 1 has a plan and the module 2 is new. -/
def oneAfterTheOther : List (Event Nat) :=
  [.visit, .queue, .mark, .visit, .finishApply 1 1 false, .startHook 1, .look 0, .look 0,
    .commit 0, .look 0, .finishInit 2, .checkAutoApply ⟨2, true, [1]⟩, .finishApply 2 1 false,
    .startHook 2, .look 0, .look 0, .look 0]

end BnkForge.Deploy.Stack
