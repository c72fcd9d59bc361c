import BnkForge.Destroy.Finalize

/-!
# The stack row as a lock

A stack that is being destroyed is closed to deploys and to a second destroy by nothing but
its status (S15-027; `backend/services/stack_deployment_service.py:1252–1271`, `:1533–1700`,
`backend/services/stack_service.py:892–1012`). The status is recomputed from all module
statuses after every task, by every status request and by `run_deploy` itself
(`backend/services/stack_service.py:912–919`, `:1191–1206`), and whoever recomputes it may do
so while other destroy tasks run. Requests and writes of other tasks are events between the
steps of the destroy run.
-/

namespace BnkForge.Destroy

open ModuleStatus Lock BnkForge.Module Transition List

/-! ### Requests -/

/-- Why a request on a stack is turned down. -/
inductive Rejection
  | alreadyDeploying
  | beingDestroyed
  | emptyStack
  | operationInProgress
  | prerequisites
  | noModules
  | alreadyBeingDestroyed
  | moduleBusy
  deriving DecidableEq, Repr

/-- How `run_deploy` ends once it is let in. -/
inductive DeployOutcome
  | queued
  /-- No module is pending. -/
  | upToDate
  /-- Modules are pending and none could be queued. -/
  | stuck
  deriving DecidableEq, Repr

/-- The status that `run_deploy` leaves the stack in. -/
def DeployOutcome.status : DeployOutcome → StackInstanceStatus
  | queued => .deploying
  | upToDate => .deployed
  | stuck => .failed

inductive Request
  | deployStack (prerequisites modules : Bool)
  | runDeploy (activeTasks prerequisites : Bool) (outcome : DeployOutcome)
  | destroyStack (activeTasks : List Nat) (lastTask : Nat → Option TaskStatus)

namespace Chain

variable (s : Chain)

/-- Some destroy task is pending, queued or in progress. -/
def destroyActive : Bool := s.workers.any fun w ↦ w.task.active

end Chain

variable (S : Teardown)

/-- The reconciliation of `get_stack_status`, `delete_stack` and `run_deploy`. -/
def reconcile (s : Chain) : Chain :=
  if s.stackStatus = .deploying ∨ s.stackStatus = .destroying then updateStackProgress S s else s

/-- `deploy_stack`; `modules` tells whether the template's modules could be created. -/
def deployStack (prerequisites modules : Bool) (s : Chain) : Chain × Except Rejection Unit :=
  match s.stackStatus with
  | .deploying => (s, .error .alreadyDeploying)
  | .destroying => (s, .error .beingDestroyed)
  | .deployed => (s, .ok ())
  | _ =>
    if !prerequisites then (s, .error .prerequisites)
    else if !modules then ({ s with stackStatus := .failed }, .error .noModules)
    else ({ s with stackStatus := .pending }, .ok ())

/-- `run_deploy` up to its first dispatch. -/
def runDeploy (activeTasks prerequisites : Bool) (outcome : DeployOutcome) (s : Chain) :
    Chain × Except Rejection Unit :=
  if s.deployedModules = [] then (s, .error .emptyStack)
  else
    let t := reconcile S s
    if t.stackStatus = .destroying ∨ t.stackStatus = .deploying ∧
        (activeTasks || t.destroyActive || (statuses S t).any transitional) then
      (t, .error .operationInProgress)
    else if !prerequisites then (t, .error .prerequisites)
    else if scopeStatuses t = [] then (t, .error .noModules)
    else ({ t with stackStatus := outcome.status }, .ok ())

/-- `destroy_stack`: the rows without infrastructure go, and the first wave is dispatched. -/
def destroyStack (activeTasks : List Nat) (lastTask : Nat → Option TaskStatus) (s : Chain) :
    Chain × Except Rejection Unit :=
  if s.stackStatus = .destroying then (s, .error .alreadyBeingDestroyed)
  else
    let r := s.mapStatus fun x status ↦
      if S.ids.contains x && status.transitional && !s.activeDestroy x &&
          !activeTasks.contains x then
        recoverForDestroy (lastTask x) status
      else status
    if (statuses S r).any (stackDestroyDecision · == .refuse) then (r, .error .moduleBusy)
    else
      let rows := fun x ↦ (r.rows x).filter fun m ↦
        !(S.ids.contains x && stackDestroyDecision m.status == .deleteRow)
      let ids := S.ids.filter fun x ↦ (rows x).isSome
      if ids = [] then
        ({ r with rows := rows, stackStatus := .destroyed, deployedModules := [] }, .ok ())
      else
        (S.modules.foldl (waveDispatch S)
          { r with rows := rows, stackStatus := .destroying, deployedModules := ids }, .ok ())

def respond (s : Chain) : Request → Chain × Except Rejection Unit
  | .deployStack prerequisites modules => deployStack prerequisites modules s
  | .runDeploy activeTasks prerequisites outcome => runDeploy S activeTasks prerequisites outcome s
  | .destroyStack activeTasks lastTask => destroyStack S activeTasks lastTask s

/-! ### Steps -/

inductive StackEvent
  | chain (e : ChainEvent)
  /-- The first wave raises when it has gone through `n` modules; what it has queued stays. -/
  | waveRaises (n : Nat)
  /-- Somebody asks for the stack's status. -/
  | poll
  | request (r : Request)
  /-- A task outside the run writes a module's status. -/
  | other (x : Nat) (status : ModuleStatus)

/-- One event, `none` when it cannot happen. -/
def stackStep (s : Chain) : StackEvent → Option Chain
  | .chain e => chainStep S s e
  | .waveRaises n =>
    if s.workers = [] then
      some { (S.modules.take n).foldl (waveDispatch S) s with stackStatus := .failed }
    else none
  | .poll => some (reconcile S s)
  | .request r => some (respond S s r).1
  | .other x status => some (s.onRow x fun m ↦ { m with status := status })

/-! ### Staying locked -/

def Locked (s : Chain) : Prop := s.destroyActive = true → s.stackStatus = .destroying

def TurnsDown (s : Chain) (e : StackEvent) (_ : Chain) : Prop :=
  ∀ r, e = .request r → s.destroyActive = true → ∃ why, (respond S s r).2 = .error why

def StaysLocked (s : Chain) (es : List StackEvent) : Prop :=
  Throughout (stackStep S) Locked s es ∧ AllSteps (stackStep S) (TurnsDown S) s es

/-- `update_stack_progress` has no reason to end the destroy: modules are left, none is called
failed and not all are destroyed. -/
def Undecided (s : Chain) : Prop :=
  statuses S s ≠ [] ∧ (statuses S s).any failedInName = false ∧
    (statuses S s).all (· == destroyed) = false

/-- A module that the first wave queues: it has infrastructure and nothing rests on it. -/
def isLeaf (s : Chain) (m : DestroyModule) : Bool :=
  match s.statusOf m.id with
  | some status =>
    !status.noInfra && (dependents S s m.id).all fun x ↦ (s.statusOf x.id).all ModuleStatus.noInfra
  | none => false

/-- The step keeps the lock: nobody recomputes the status while a destroy task is active and a
reason to end the destroy is there, terminal detection does not fire then, and nothing is
queued on a stack that has left `destroying`. -/
def KeepsLock (s : Chain) : StackEvent → Prop
  | .chain (.progress _) | .poll => s.destroyActive = true → Undecided S s
  | .chain (.detect _) =>
    s.destroyActive = true → s.deployedModules ≠ [] → (scopeStatuses s).all terminalDestroy = false
  | .chain (.commitDispatch _) => s.stackStatus = .destroying
  | .chain (.firstWave _) => s.stackStatus = .destroying ∨ ∀ m ∈ S.modules, isLeaf S s m = false
  | .waveRaises n => ∀ m ∈ S.modules.take n, isLeaf S s m = false
  | .request (.runDeploy _ _ _) =>
    s.destroyActive = true → s.deployedModules ≠ [] → Undecided S s
  | _ => True

/-! ### What a step does to the tasks -/

section Tasks

variable {S} {s t : Chain} {k : Nat} {w : DestroyWorker} {m : ModuleRow} {e : ChainEvent}

private theorem destroyActive_of_set {u : DestroyWorker} (hk : s.workers[k]? = some w)
    (hw : u.task.active = true → w.task.active = true) (ht : t.workers = s.workers.set k u)
    (h : t.destroyActive = true) : s.destroyActive = true := by
  rw [Chain.destroyActive, ht, any_eq_true] at h
  obtain ⟨v, hv, hactive⟩ := h
  rw [Chain.destroyActive, any_eq_true]
  rcases mem_or_eq_of_mem_set hv with hv | rfl
  · exact ⟨v, hv, hactive⟩
  · exact ⟨w, mem_of_getElem? hk, hw hactive⟩

private theorem destroyActive_set {u : DestroyWorker} (hk : s.workers[k]? = some w)
    (hw : u.task = w.task) (ht : t.workers = s.workers.set k u) :
    t.destroyActive = s.destroyActive := by
  obtain ⟨hlt, hget⟩ := List.getElem?_eq_some_iff.mp hk
  have hback : s.workers = t.workers.set k w := by
    rw [ht, set_set, ← hget, set_getElem_self]
  have hself : t.workers[k]? = some u := by rw [ht, getElem?_set_self hlt]
  rw [Bool.eq_iff_iff]
  constructor
  · exact destroyActive_of_set hk (fun h ↦ hw ▸ h) ht
  · exact destroyActive_of_set hself (fun h ↦ hw ▸ h) hback

def QueuedActive (s : Chain) : Prop :=
  ∀ w ∈ s.workers, w.phase = .queued → w.task.active = true

private theorem ownRecord_workerMoves (hne : ∀ k, e ≠ .commitDispatch k)
    (hst : WorkerMoves S s k w m e t) :
    t.workers = s.workers ∨
      ∃ w', t.workers = s.workers.set k w' ∧ w'.phase ≠ .queued ∧
        (w'.task.active = true → w.task.active = true ∨ w.phase = .queued) := by
  cases hst with
  | dispatch _ _ _ _ _ => exact absurd rfl (hne k)
  | load hp => exact Or.inr ⟨_, rfl, by simp, fun _ ↦ Or.inr hp⟩
  | refresh _ _ _ => exact Or.inl rfl
  | skip _ _ => exact Or.inr ⟨_, rfl, by simp, fun h ↦ absurd h Bool.false_ne_true⟩
  | write x seen extra l target hp hl htarget =>
    have hx : x.taskStatus.active = false := by cases x <;> rfl
    simp only [finalWrite]
    repeat' split
    all_goals exact Or.inr ⟨_, rfl, by simp, fun h ↦ absurd (hx.symm.trans h) (by decide)⟩
  | handle x seen hp =>
    refine Or.inr ⟨_, rfl, ?_, fun h ↦ absurd h Bool.false_ne_true⟩
    simp only [afterHandler]
    split <;> simp
  | progress hp =>
    refine Or.inr ⟨{ w with phase := .trigger (S.dependencies w.module) }, ?_, (by simp), Or.inl⟩
    split <;> rfl
  | detectStack hS hp =>
    refine Or.inr ⟨{ w with phase := .ended }, ?_, (by simp), Or.inl⟩
    simp only [runTerminalDetectionStack]
    repeat' split
    all_goals rfl
  | _ => exact Or.inr ⟨_, rfl, by simp, Or.inl⟩

private theorem queuedActive_set {u : DestroyWorker} (h : QueuedActive s)
    (hw : u.phase ≠ .queued) (ht : t.workers = s.workers.set k u) : QueuedActive t := by
  intro v hv
  rw [ht] at hv
  rcases mem_or_eq_of_mem_set hv with hv | rfl
  · exact h v hv
  · exact fun hp ↦ absurd hp hw

private theorem queuedActive_dispatch (h : QueuedActive s) (seen : ModuleStatus) (x : Nat) :
    QueuedActive (s.dispatch seen x) := by
  intro v hv
  rw [workers_dispatch, mem_append, mem_singleton] at hv
  rcases hv with hv | rfl
  · exact h v hv
  · exact fun _ ↦ rfl

private theorem queuedActive_foldl_waveDispatch (h : QueuedActive s) (ms : List DestroyModule) :
    QueuedActive (ms.foldl (waveDispatch S) s) := by
  induction ms generalizing s with
  | nil => exact h
  | cons m ms ih =>
    refine ih ?_
    unfold waveDispatch
    repeat' split
    · exact queuedActive_dispatch h _ _
    · exact h
    · exact h

private theorem queuedActive_chainStep (h : QueuedActive s) (hst : chainStep S s e = some t) :
    QueuedActive t := by
  cases hact : e.actor with
  | none =>
    cases e with
    | firstWave force =>
      simp only [chainStep, Option.ite_none_right_eq_some] at hst
      cases hst.2
      refine queuedActive_foldl_waveDispatch ?_ _
      split <;> exact h
    | outside x op =>
      cases hst
      exact h
    | recover x lastTask =>
      simp only [chainStep, Option.ite_none_right_eq_some] at hst
      cases hst.2
      exact h
    | _ => cases hact
  | some k =>
    obtain ⟨w, hk, ⟨m, -, hst⟩ | ⟨rfl, -, rfl⟩⟩ := workerMoves_of_chainStep hact hst
    · by_cases hne : ∀ k, e ≠ .commitDispatch k
      · rcases ownRecord_workerMoves hne hst with ht | ⟨w', ht, hp, -⟩
        · intro v hv
          exact h v (ht ▸ hv)
        · exact queuedActive_set h hp ht
      · rw [not_forall] at hne
        obtain ⟨j, hj⟩ := hne
        rw [not_not] at hj
        subst hj
        cases hst with
        | dispatch d seen deps hp hrow =>
          refine queuedActive_dispatch (queuedActive_set h ?_ rfl) _ _
          simp
    · refine queuedActive_set h ?_ rfl
      simp

private theorem destroyActive_of_chainStep (h : QueuedActive s) (hst : chainStep S s e = some t)
    (hwave : ∀ force, e ≠ .firstWave force) (hdispatch : ∀ k, e ≠ .commitDispatch k)
    (ht : t.destroyActive = true) : s.destroyActive = true := by
  cases hact : e.actor with
  | none =>
    cases e with
    | firstWave force => exact absurd rfl (hwave force)
    | outside x op =>
      cases hst
      exact ht
    | recover x lastTask =>
      simp only [chainStep, Option.ite_none_right_eq_some] at hst
      cases hst.2
      exact ht
    | _ => cases hact
  | some k =>
    obtain ⟨w, hk, ⟨m, -, hst⟩ | ⟨rfl, -, rfl⟩⟩ := workerMoves_of_chainStep hact hst
    · rcases ownRecord_workerMoves hdispatch hst with hws | ⟨w', hws, -, hactive⟩
      · rw [Chain.destroyActive, hws] at ht
        exact ht
      · refine destroyActive_of_set hk (fun hw' ↦ ?_) hws ht
        rcases hactive hw' with hw | hp
        · exact hw
        · exact h w (mem_of_getElem? hk) hp
    · refine destroyActive_of_set hk (fun hw' ↦ ?_) rfl ht
      by_cases hw : w.task.active = true
      · exact hw
      · rwa [if_neg hw] at hw'

private theorem destroyActive_hook (hS : S.scope = .stack) {j : Nat}
    (hst : chainStep S s e = some t) (he : e = .progress j ∨ e = .detect j) :
    t.destroyActive = s.destroyActive := by
  have hact : e.actor = some j := by rcases he with rfl | rfl <;> rfl
  obtain ⟨w, hk, ⟨m, -, hst⟩ | ⟨rfl, -, -⟩⟩ := workerMoves_of_chainStep hact hst
  · rcases he with rfl | rfl
    · cases hst with
      | progress hp =>
        rw [if_pos hS]
        exact destroyActive_set (u := { w with phase := .trigger (S.dependencies w.module) }) hk rfl
          rfl
    · cases hst with
      | detectStack _ hp =>
        refine destroyActive_set (u := { w with phase := .ended }) hk rfl ?_
        simp only [runTerminalDetectionStack]
        repeat' split
        all_goals rfl
      | detectProject hproject _ => cases hS.symm.trans hproject
  · rcases he with he | he <;> cases he

/-! ### First waves -/

private theorem destroyActive_dispatch (s : Chain) (seen : ModuleStatus) (x : Nat) :
    (s.dispatch seen x).destroyActive = true := by
  simp [Chain.destroyActive, TaskStatus.active]

private theorem destroyActive_waves (h : s.destroyActive = true) (ms : List DestroyModule) :
    (ms.foldl (waveDispatch S) s).destroyActive = true := by
  induction ms generalizing s with
  | nil => exact h
  | cons m ms ih =>
    refine ih ?_
    unfold waveDispatch
    repeat' split
    · exact destroyActive_dispatch s _ _
    · exact h
    · exact h

private theorem destroyActive_firstWave (hws : s.workers = []) (ms : List DestroyModule) :
    (ms.foldl (waveDispatch S) s).destroyActive = true ↔ ∃ m ∈ ms, isLeaf S s m = true := by
  induction ms with
  | nil => simp [Chain.destroyActive, hws]
  | cons m ms ih =>
    have hidle : s.activeDestroy m.id = false := by simp [Chain.activeDestroy, hws]
    rw [foldl_cons]
    by_cases hleaf : isLeaf S s m = true
    · refine iff_of_true (destroyActive_waves ?_ ms) ⟨m, mem_cons_self, hleaf⟩
      unfold isLeaf at hleaf
      unfold waveDispatch
      split
      · next status hstatus =>
        rw [hstatus] at hleaf
        rw [if_pos (by simp only [hleaf, hidle, Bool.not_false, Bool.and_self])]
        exact destroyActive_dispatch s _ _
      · next hstatus =>
        rw [hstatus] at hleaf
        cases hleaf
    · have hsame : waveDispatch S s m = s := by
        unfold isLeaf at hleaf
        unfold waveDispatch
        split
        · next status hstatus =>
          rw [hstatus] at hleaf
          rw [if_neg]
          intro htest
          rw [Bool.and_eq_true] at htest
          exact hleaf htest.1
        · rfl
      rw [hsame, ih]
      simp [hleaf]

end Tasks

/-! ### Which steps keep the lock -/

section Lock

variable {S} {s t : Chain} {e : StackEvent}

/-- When `update_stack_progress` leaves a stack in `destroying`. -/
private theorem stackProgress_destroying_iff (all : List ModuleStatus) (deployed : List Nat) :
    (stackProgress all .destroying deployed).1 = .destroying ↔
      all ≠ [] ∧ all.any failedInName = false ∧ all.all (· == destroyed) = false := by
  unfold stackProgress
  by_cases hnil : all = []
  · simp [hnil]
  · rw [if_neg hnil, if_pos rfl]
    by_cases hfailed : all.any failedInName = true
    · simp [hfailed]
    · rw [if_neg hfailed]
      by_cases hall : all.all (· == destroyed) = true
      · rw [if_pos hall]
        exact iff_of_false nofun fun h ↦ absurd (hall.symm.trans h.2.2) (by decide)
      · rw [if_neg hall]
        exact iff_of_true rfl ⟨hnil, by simpa using hfailed, by simpa using hall⟩

private theorem stackStatus_updateStackProgress_iff (h : s.stackStatus = .destroying) :
    (updateStackProgress S s).stackStatus = .destroying ↔ Undecided S s := by
  simp only [updateStackProgress, h]
  exact stackProgress_destroying_iff _ _

private theorem reconcile_of_destroying (h : s.stackStatus = .destroying) :
    reconcile S s = updateStackProgress S s := if_pos (Or.inr h)

@[simp] private theorem workers_reconcile (s : Chain) : (reconcile S s).workers = s.workers := by
  unfold reconcile
  split <;> rfl

private theorem destroyActive_congr (h : t.workers = s.workers) :
    t.destroyActive = s.destroyActive := by
  rw [Chain.destroyActive, h, Chain.destroyActive]

private theorem Locked.mono (h : Locked s) (ht : t.destroyActive = true → s.destroyActive = true)
    (hstatus : t.stackStatus = s.stackStatus) : Locked t :=
  fun hactive ↦ hstatus.trans (h (ht hactive))

private theorem locked_iff_of_active (h : Locked s) (ht : t.destroyActive = s.destroyActive) :
    Locked t ↔ (s.destroyActive = true → s.stackStatus = .destroying →
      t.stackStatus = .destroying) := by
  unfold Locked
  rw [ht]
  exact forall_congr' fun hactive ↦ ⟨fun ht _ ↦ ht, fun ht ↦ ht (h hactive)⟩

private theorem locked_reconcile_iff (h : Locked s) :
    Locked (reconcile S s) ↔ (s.destroyActive = true → Undecided S s) := by
  rw [locked_iff_of_active h (destroyActive_congr (workers_reconcile s))]
  refine forall_congr' fun hactive ↦ ?_
  have hstatus := h hactive
  rw [reconcile_of_destroying hstatus, stackStatus_updateStackProgress_iff hstatus]
  exact ⟨fun hu ↦ hu hstatus, fun hu _ ↦ hu⟩

private theorem locked_progress_iff (hS : S.scope = .stack) (h : Locked s) {k : Nat}
    (hst : chainStep S s (.progress k) = some t) :
    Locked t ↔ (s.destroyActive = true → Undecided S s) := by
  rw [locked_iff_of_active h (destroyActive_hook hS hst (Or.inl rfl))]
  refine forall_congr' fun hactive ↦ ?_
  have hstatus := h hactive
  rw [(sameStack_chainStep hS hst).status, stackEffect, stackStatus_updateStackProgress_iff hstatus]
  exact ⟨fun hu ↦ hu hstatus, fun hu _ ↦ hu⟩

/-- When terminal detection leaves a stack in `destroying`. -/
private theorem runTerminalDetectionStack_destroying_iff (h : s.stackStatus = .destroying) :
    (runTerminalDetectionStack s).stackStatus = .destroying ↔
      (s.deployedModules ≠ [] → (scopeStatuses s).all terminalDestroy = false) := by
  unfold runTerminalDetectionStack
  by_cases hnil : s.deployedModules = []
  · rw [if_pos (Or.inr hnil)]
    exact iff_of_true h fun hne ↦ absurd hnil hne
  · rw [if_neg (by rw [not_or, not_not]; exact ⟨h, hnil⟩)]
    by_cases hall : (scopeStatuses s).all terminalDestroy = true
    · rw [if_neg (by rw [hall]; decide)]
      refine iff_of_false ?_ fun hfalse ↦ absurd (hall.symm.trans (hfalse hnil)) (by decide)
      split <;> exact nofun
    · rw [if_pos (by simpa using hall)]
      exact iff_of_true h fun _ ↦ by simpa using hall

private theorem locked_detect_iff (hS : S.scope = .stack) (h : Locked s) {k : Nat}
    (hst : chainStep S s (.detect k) = some t) :
    Locked t ↔ (s.destroyActive = true → s.deployedModules ≠ [] →
      (scopeStatuses s).all terminalDestroy = false) := by
  rw [locked_iff_of_active h (destroyActive_hook hS hst (Or.inr rfl))]
  refine forall_congr' fun hactive ↦ ?_
  have hstatus := h hactive
  rw [(sameStack_chainStep hS hst).status, stackEffect,
    runTerminalDetectionStack_destroying_iff hstatus]
  exact ⟨fun hu ↦ hu hstatus, fun hu _ ↦ hu⟩

private theorem locked_chainStep_iff (hS : S.scope = .stack) (hq : QueuedActive s) (h : Locked s)
    {e : ChainEvent} (hst : chainStep S s e = some t) : Locked t ↔ KeepsLock S s (.chain e) := by
  have hsame := (sameStack_chainStep hS hst).status
  cases e with
  | progress k => exact locked_progress_iff hS h hst
  | detect k => exact locked_detect_iff hS h hst
  | commitDispatch k =>
    have hactive : t.destroyActive = true := by
      obtain ⟨w, -, ⟨m, -, hst⟩ | ⟨he, -, -⟩⟩ := workerMoves_of_chainStep rfl hst
      · cases hst with
        | dispatch d seen deps hp hrow => exact destroyActive_dispatch _ _ _
      · cases he
    exact ⟨fun ht ↦ hsame.symm.trans (ht hactive), fun hok _ ↦ hsame.trans hok⟩
  | firstWave force =>
    simp only [chainStep, Option.ite_none_right_eq_some] at hst
    obtain ⟨hws, hst⟩ := hst
    cases hst
    have hpre : (if force && S.scope == .project then forceDestroy S s else s) = s := by
      rw [hS]
      exact if_neg (by simp)
    have hactive := destroyActive_firstWave (S := S) hws S.modules
    rw [dispatchFirstDestroyWave, hpre] at hsame ⊢
    unfold Locked KeepsLock
    rw [hactive, hsame]
    constructor
    · intro ht
      by_cases hleaf : ∃ m ∈ S.modules, isLeaf S s m = true
      · exact Or.inl (ht hleaf)
      · exact Or.inr fun m hm ↦ by simpa using fun hl ↦ hleaf ⟨m, hm, hl⟩
    · rintro (hstatus | hnone) ⟨m, hm, hl⟩
      · exact hstatus
      · exact absurd (hl.symm.trans (hnone m hm)) (by decide)
  | _ =>
    refine iff_of_true (h.mono ?_ hsame) trivial
    exact destroyActive_of_chainStep hq hst (by simp) (by simp)

private theorem workers_runDeploy (a p : Bool) (o : DeployOutcome) :
    (runDeploy S a p o s).1.workers = s.workers := by
  simp only [runDeploy]
  repeat' split
  all_goals simp

/-- `run_deploy` on a stack that is being destroyed: it is let in when the reconciliation that
it begins with ends the destroy. -/
private theorem runDeploy_of_destroying (hstatus : s.stackStatus = .destroying)
    (a p : Bool) (o : DeployOutcome) :
    ((runDeploy S a p o s).1.stackStatus = .destroying ↔
      (s.deployedModules ≠ [] → Undecided S s)) ∧
    ((s.deployedModules ≠ [] → Undecided S s) → ∃ why, (runDeploy S a p o s).2 = .error why) := by
  unfold runDeploy
  by_cases hnil : s.deployedModules = []
  · rw [if_pos hnil]
    exact ⟨iff_of_true hstatus fun hne ↦ absurd hnil hne, fun _ ↦ ⟨_, rfl⟩⟩
  · have hiff := stackStatus_updateStackProgress_iff (S := S) hstatus
    have himp : (s.deployedModules ≠ [] → Undecided S s) ↔ Undecided S s :=
      ⟨fun hu ↦ hu hnil, fun hu _ ↦ hu⟩
    simp only [if_neg hnil, reconcile_of_destroying hstatus, himp]
    by_cases hu : Undecided S s
    · rw [if_pos (Or.inl (hiff.mpr hu))]
      exact ⟨hiff, fun _ ↦ ⟨_, rfl⟩⟩
    · refine ⟨iff_of_false ?_ hu, fun hu' ↦ absurd hu' hu⟩
      have hne := mt hiff.mp hu
      repeat' split
      · exact hne
      · exact hne
      · exact hne
      · cases o <;> exact nofun

/-- `deploy_stack` queues no destroy. -/
private theorem locked_deployStack (h : Locked s) (p m : Bool) : Locked (deployStack p m s).1 := by
  have hws : (deployStack p m s).1.workers = s.workers := by
    simp only [deployStack]
    repeat' split
    all_goals rfl
  rw [locked_iff_of_active h (destroyActive_congr hws)]
  intro _ hstatus
  simp only [deployStack, hstatus]

/-- `destroy_stack` queues destroys on a stack that it has set to `destroying`. -/
private theorem locked_destroyStack (h : Locked s) (a : List Nat) (l : Nat → Option TaskStatus) :
    Locked (destroyStack S a l s).1 := by
  simp only [destroyStack]
  split
  · exact h
  · next hstatus =>
    have hidle : s.destroyActive = true → False := fun hactive ↦ hstatus (h hactive)
    split
    · exact fun hactive ↦ (hidle hactive).elim
    · split
      · exact fun hactive ↦ (hidle hactive).elim
      · exact fun _ ↦ (sameStack_foldl_waveDispatch S.modules _).status

private theorem locked_respond_iff (h : Locked s) (r : Request) :
    Locked (respond S s r).1 ↔ KeepsLock S s (.request r) := by
  cases r with
  | deployStack p m => exact iff_of_true (locked_deployStack h p m) trivial
  | destroyStack a l => exact iff_of_true (locked_destroyStack h a l) trivial
  | runDeploy a p o =>
    rw [respond, locked_iff_of_active h (destroyActive_congr (workers_runDeploy a p o))]
    refine forall_congr' fun hactive ↦ ?_
    have hstatus := h hactive
    rw [(runDeploy_of_destroying hstatus a p o).1]
    exact ⟨fun hu ↦ hu hstatus, fun hu _ ↦ hu⟩

/-- A locked stack turns requests down, `run_deploy` where the guard says so. -/
private theorem turnsDown_of_locked (h : Locked s) (hok : KeepsLock S s e) (t : Chain) :
    TurnsDown S s e t := by
  rintro r rfl hactive
  have hstatus := h hactive
  cases r with
  | deployStack p m => exact ⟨.beingDestroyed, by simp only [respond, deployStack, hstatus]⟩
  | destroyStack a l =>
    exact ⟨.alreadyBeingDestroyed, by simp only [respond, destroyStack, hstatus, if_true]⟩
  | runDeploy a p o => exact (runDeploy_of_destroying hstatus a p o).2 (hok hactive)

private theorem locked_stackStep_iff (hS : S.scope = .stack) (hq : QueuedActive s) (h : Locked s)
    (hst : stackStep S s e = some t) : Locked t ↔ KeepsLock S s e := by
  cases e with
  | chain e => exact locked_chainStep_iff hS hq h hst
  | waveRaises n =>
    simp only [stackStep, Option.ite_none_right_eq_some] at hst
    obtain ⟨hws, hst⟩ := hst
    cases hst
    have hactive := destroyActive_firstWave (S := S) hws (S.modules.take n)
    unfold Locked KeepsLock
    constructor
    · intro ht m hm
      by_contra hleaf
      rw [Bool.not_eq_false] at hleaf
      exact absurd (ht (hactive.mpr ⟨m, hm, hleaf⟩)) nofun
    · intro hnone ht
      obtain ⟨m, hm, hleaf⟩ := hactive.mp ht
      exact absurd (hleaf.symm.trans (hnone m hm)) (by decide)
  | poll =>
    cases hst
    exact locked_reconcile_iff h
  | request r =>
    cases hst
    exact locked_respond_iff h r
  | other x status =>
    cases hst
    exact iff_of_true h trivial

private theorem queuedActive_stackStep (h : QueuedActive s) (hst : stackStep S s e = some t) :
    QueuedActive t := by
  have hcongr : ∀ u : Chain, u.workers = s.workers → QueuedActive u := by
    intro u hu w hw
    exact h w (hu ▸ hw)
  cases e with
  | chain e => exact queuedActive_chainStep h hst
  | waveRaises n =>
    simp only [stackStep, Option.ite_none_right_eq_some] at hst
    cases hst.2
    exact queuedActive_foldl_waveDispatch h (S.modules.take n)
  | poll =>
    cases hst
    exact hcongr _ (workers_reconcile s)
  | request r =>
    cases hst
    cases r with
    | deployStack p m =>
      apply hcongr
      simp only [respond, deployStack]
      repeat' split
      all_goals rfl
    | runDeploy a p o => exact hcongr _ (workers_runDeploy a p o)
    | destroyStack a l =>
      simp only [respond, destroyStack]
      repeat' split
      · exact h
      · exact h
      · exact h
      · apply queuedActive_foldl_waveDispatch
        exact h
  | other x status =>
    cases hst
    exact h

/-- In every run of a stack's destroy, with requests, status polls and other tasks' writes in
between, the stack stays locked exactly when every step keeps the lock. -/
theorem stackDestroy_staysLocked_iff (hS : S.scope = .stack) (rows : Nat → Option ModuleRow)
    {es : List StackEvent} (hrun : Run (stackStep S) Free (Chain.start S rows) es t) :
    StaysLocked S (Chain.start S rows) es ↔
      Run (stackStep S) (KeepsLock S) (Chain.start S rows) es t := by
  have hq : QueuedActive (Chain.start S rows) := List.forall_mem_nil _
  have hlocked : Locked (Chain.start S rows) := fun _ ↦ rfl
  have hiff : Throughout (stackStep S) Locked (Chain.start S rows) es ↔
      Run (stackStep S) (KeepsLock S) (Chain.start S rows) es t :=
    hrun.throughout_iff_of_invariant hq hlocked (fun _ _ _ ha hst ↦ queuedActive_stackStep ha hst)
      fun _ _ _ hq ha hst ↦ locked_stackStep_iff hS hq ha hst
  constructor
  · intro h
    exact hiff.mp h.1
  · intro h
    refine ⟨hiff.mpr h, ?_⟩
    refine h.allSteps (I := fun s ↦ QueuedActive s ∧ Locked s) ⟨hq, hlocked⟩ ?_
    intro a e b ha hok hst
    exact ⟨⟨queuedActive_stackStep ha.1 hst, (locked_stackStep_iff hS ha.1 ha.2 hst).mpr hok⟩,
      turnsDown_of_locked ha.2 hok b⟩

end Lock

/-- Two independent modules are destroyed one after the other, and `run_deploy` is asked for
in between. -/
def askedInBetween : List StackEvent :=
  [.chain (.firstWave false), .chain (.load 0), .chain (.acquire 0 30 0),
    .chain (.write 0 .success destroying [("outputs", .null)]), .chain (.progress 0), .poll,
    .request (.runDeploy false true .queued), .chain (.test 0), .chain (.detect 0)]

theorem stackDestroy_staysLocked_askedInBetween :
    StaysLocked twoModules (Chain.start twoModules (appliedRows 2)) askedInBetween ∧
      ∃ t, exec (stackStep twoModules) (Chain.start twoModules (appliedRows 2)) askedInBetween =
          some t ∧ t.destroyActive = true ∧ t.stackStatus = .destroying := by
  have hundecided : ∀ s : Chain, statuses twoModules s = [destroyed, destroying] →
      Undecided twoModules s := by
    intro s hs
    rw [Undecided, hs]
    decide
  refine ⟨(stackDestroy_staysLocked_iff rfl (appliedRows 2)
    (t := (exec (stackStep twoModules) (Chain.start twoModules (appliedRows 2))
      askedInBetween).get rfl) (Run.free_iff_exec.mpr rfl)).mpr ?_, _, rfl, rfl, rfl⟩
  refine .cons (Or.inl rfl) rfl (.cons trivial rfl (.cons trivial rfl (.cons trivial rfl ?_)))
  refine .cons (fun _ ↦ hundecided _ rfl) rfl (.cons (fun _ ↦ hundecided _ rfl) rfl ?_)
  refine .cons (fun _ _ ↦ hundecided _ rfl) rfl (.cons trivial rfl ?_)
  exact .cons (fun _ _ ↦ rfl) rfl (.nil _)

/-- Module 1 rests on module 0. -/
def onePerLayer : Teardown :=
  ⟨.stack, [⟨0, [], none⟩, ⟨1, [0], none⟩], by decide, ⟨id, by decide⟩⟩

/-- The apply of module 0 has failed before. -/
def leftoverRows : Nat → Option ModuleRow := fun x ↦
  (appliedRows 2 x).map fun m ↦ { m with status := if x = 0 then applyFailed else applied }

/-- The destroy of module 1 succeeds; its hooks call the stack failed and queue module 0. -/
def failedByLeftover : List StackEvent :=
  [.chain (.firstWave false), .chain (.load 0), .chain (.acquire 0 30 0),
    .chain (.write 0 .success destroying [("outputs", .null)]), .chain (.progress 0),
    .chain (.test 0), .chain (.commitDispatch 0)]

theorem stackDestroy_unlocked :
    (∃ t, exec (stackStep onePerLayer) (Chain.start onePerLayer leftoverRows) failedByLeftover =
        some t ∧ t.destroyActive = true ∧ t.stackStatus = .failed ∧
      (respond onePerLayer t (.deployStack true true)).2 = .ok ()) ∧
    ¬ ∀ (S : Teardown) (rows : Nat → Option ModuleRow) (es : List StackEvent) (t : Chain),
      S.scope = .stack → Run (stackStep S) Free (Chain.start S rows) es t →
        StaysLocked S (Chain.start S rows) es := by
  refine ⟨⟨_, rfl, rfl, rfl, rfl⟩, fun h ↦ ?_⟩
  have hlocked := h onePerLayer leftoverRows failedByLeftover _ rfl (Run.free_iff_exec.mpr rfl)
  have hbefore : Run (stackStep onePerLayer) Free (Chain.start onePerLayer leftoverRows)
      (failedByLeftover.take 6) _ := Run.free_iff_exec.mpr rfl
  have hend := hbefore.allSteps_last (e := .chain (.commitDispatch 0)) hlocked.1.2 rfl
  exact absurd (hend rfl) (by decide)

end BnkForge.Destroy
