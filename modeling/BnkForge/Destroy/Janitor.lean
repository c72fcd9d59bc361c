import BnkForge.Destroy.Scope
import BnkForge.Service.Writers

/-!
# The stale-execution janitor

`reset_stale_tasks` and `reset_stale_destroys` (`backend/services/execution_janitor.py:85–224`), with the
trigger that they run again (`backend/tasks/_tofu_helpers.py:364–680`) in one go. A task is alive where its
Celery id is among those of the workers' heartbeats, which are the ids of running tasks; the broker is not
asked. A module is reached only through its tasks.
-/

namespace BnkForge.Destroy.Scope

open ModuleStatus BnkForge.Module BnkForge.Service List

/-! ### The trigger in one go -/

section

-- the Celery ids that the broker gives, where it takes a task
variable (broker : Nat → Option String) (m : SiteModule)

/-- The loop of `_trigger_next_destroy_module`, which ends where the broker raises. -/
def triggerDependencies (scope : Option Stamp) (stackScope : Bool) (ids : Option (List Nat)) (s : Site) :
    List Nat → Site
  | [] => s
  | d :: deps =>
    if triggerTest s m.project stackScope ids d then
      let t := s.queue d scope ((s.newestTask m.info.id).bind DestroyTask.runHandle)
      if (broker d).isSome then triggerDependencies scope stackScope ids t deps else t
    else triggerDependencies scope stackScope ids s deps

/-- `_run_terminal_detection`. -/
def runTerminalDetection (s : Site) : Site :=
  match destroyScopeFor s m.info.id none with
  | some .module => s
  | some .project => declare s m.project (detectProject s m)
  | some .stack => m.stack.elim s (runTerminalDetectionStack s)
  | none => m.stack.elim (declare s m.project (detectProject s m)) (runTerminalDetectionStack s)

/-- `_trigger_next_destroy_module` without a task id. -/
def triggerNextDestroyModule (s : Site) : Site :=
  let scope := destroyScopeFor s m.info.id none
  if scope = some .module then s
  else if m.info.dependencies = [] then runTerminalDetection m s
  else
    let stackScope := scope != some .project && m.stack.isSome
    let stack := m.stack.bind fun id ↦ s.stackRows.find? (·.id == id)
    let ids := if stackScope then (stack.map StackRow.deployedModules).filter (!·.isEmpty) else none
    runTerminalDetection m (triggerDependencies broker m scope stackScope ids s m.info.dependencies)

end

/-! ### Tasks of all types -/

/-- A row of `tasks`. -/
structure TaskRow where
  taskType : String
  module : Option Nat
  project : Nat
  status : TaskStatus
  celeryTaskId : Option String
  error : String
  completedAt : Option Int
  stamp : Option Stamp
  runHandle : Option Nat
  deriving DecidableEq, Repr

structure Ledger where
  modules : List SiteModule
  stackRows : List StackRow
  stackProject : Nat → Nat
  tasks : List TaskRow
  endings : List (Entity × Verdict)

def TaskRow.destroyTask? (t : TaskRow) : Option DestroyTask :=
  if t.taskType = "destroy" then t.module.map fun x ↦ ⟨x, t.status, t.stamp, t.runHandle⟩ else none

namespace Ledger

variable (l : Ledger)

def site : Site := ⟨l.modules, l.stackRows, l.tasks.filterMap TaskRow.destroyTask?, l.endings, [], []⟩

def find (x : Nat) : Option SiteModule := l.modules.find? (·.info.id == x)

def queuedRow (broker : Nat → Option String) (t : DestroyTask) : TaskRow where
  taskType := "destroy"
  module := some t.module
  project := ((l.find t.module).map SiteModule.project).getD 0
  status := t.status
  celeryTaskId := broker t.module
  error := ""
  completedAt := none
  stamp := t.stamp
  runHandle := t.runHandle

def onSite (broker : Nat → Option String) (f : Site → Site) : Ledger :=
  let s := f l.site
  { l with
    modules := s.modules
    stackRows := s.stackRows
    tasks := l.tasks ++ (s.tasks.drop l.site.tasks.length).map (l.queuedRow broker)
    endings := s.endings }

end Ledger

/-! ### The janitor -/

section

variable (now : Int) (live : List String) (broker : Nat → Option String)

def TaskRow.isLive (t : TaskRow) : Bool := t.celeryTaskId.any fun id ↦ id != "" && live.contains id

def TaskRow.isStale (t : TaskRow) : Bool := t.status.active && !t.isLive live

def resetTask (t : TaskRow) : TaskRow :=
  if t.isStale live then
    { t with
      status := .failed
      error := if t.error = "" then "Worker no longer alive — reset by stale-execution janitor" else t.error
      completedAt := some now }
  else t

/-- `destroy_modules_to_redrive` and `deploy_modules_to_reset`. -/
def staleModules (l : Ledger) (destroys : Bool) : List Nat :=
  ((l.tasks.filter fun t ↦ t.isStale live && (t.taskType == "destroy") == destroys).filterMap fun t ↦
    t.module.filter fun x ↦ (l.find x).isSome).eraseDups

/-- The modules of deploy tasks are driven to the failed status. -/
def resetModule (ids : List Nat) (m : SiteModule) : SiteModule :=
  if ids.contains m.info.id then { m with status := transientToFailed m.status } else m

def failDestroy (x : Nat) (m : SiteModule) : SiteModule :=
  if m.info.id = x ∧ m.status = destroying then { m with status := destroyFailed } else m

/-- One round of the loop over the modules of destroy tasks, with the row as it is loaded. -/
def redrive (l : Ledger) (m : SiteModule) : Ledger :=
  ({ l with modules := l.modules.map (failDestroy m.info.id) }).onSite broker
    (triggerNextDestroyModule broker m)

def resetRows (l : Ledger) : Ledger :=
  { l with
    modules := l.modules.map (resetModule (staleModules live l false))
    tasks := l.tasks.map (resetTask now live) }

/-- `reset_stale_tasks`. -/
def resetStaleTasks (l : Ledger) : Ledger :=
  ((staleModules live l true).filterMap l.find).foldl (redrive broker) (resetRows now live l)

def liveDestroy (l : Ledger) (stack : StackRow) : Bool :=
  l.tasks.any fun t ↦ t.project == l.stackProject stack.id && t.taskType == "destroy" && t.status.active &&
    t.module.any stack.deployedModules.contains && t.isLive live

/-- `reset_stale_destroys`. -/
def resetStaleDestroys (l : Ledger) : Ledger :=
  { l with
    stackRows := l.stackRows.map fun stack ↦
      if stack.status = .destroying ∧ liveDestroy live l stack = false then { stack with status := .failed }
      else stack }

/-- The two sweeps of `reset_stale_executions`. -/
def resetStaleExecutions (l : Ledger) : Ledger :=
  resetStaleDestroys live (resetStaleTasks now live broker l)

end

/-! ### What the hooks do to modules and tasks -/

def Drives (s t : Site) : Prop :=
  ∃ new, t.tasks = s.tasks ++ new ∧ (∀ n ∈ new, n.status.active = true) ∧
    ∀ m ∈ t.modules, m.status.transitional = true →
      (∃ m' ∈ s.modules, m'.info.id = m.info.id ∧ m'.status = m.status) ∨ ∃ n ∈ new, n.module = m.info.id

section

variable {s t u : Site} {broker : Nat → Option String} {m : SiteModule}

theorem Drives.of_modules (htasks : t.tasks = s.tasks)
    (hmodules : ∀ m ∈ t.modules, m.status.transitional = true →
      ∃ m' ∈ s.modules, m'.info.id = m.info.id ∧ m'.status = m.status) : Drives s t :=
  ⟨[], htasks.trans (append_nil _).symm, nofun, fun m hm htr ↦ .inl (hmodules m hm htr)⟩

theorem Drives.refl (s : Site) : Drives s s := .of_modules rfl fun m hm _ ↦ ⟨m, hm, rfl, rfl⟩

theorem Drives.trans (hst : Drives s t) (htu : Drives t u) : Drives s u := by
  obtain ⟨new, htasks, hactive, hmodules⟩ := hst
  obtain ⟨new', htasks', hactive', hmodules'⟩ := htu
  refine ⟨new ++ new', by rw [htasks', htasks, append_assoc], ?_, fun m hm htr ↦ ?_⟩
  · exact fun n hn ↦ (mem_append.mp hn).elim (hactive n) (hactive' n)
  · rcases hmodules' m hm htr with ⟨m', hm', hid, hstatus⟩ | ⟨n, hn, hmodule⟩
    · rcases hmodules m' hm' (hstatus ▸ htr) with ⟨m'', hm'', hid', hstatus'⟩ | ⟨n, hn, hmodule⟩
      · exact .inl ⟨m'', hm'', hid'.trans hid, hstatus'.trans hstatus⟩
      · exact .inr ⟨n, mem_append_left _ hn, hmodule.trans hid⟩
    · exact .inr ⟨n, mem_append_right _ hn, hmodule⟩

theorem drives_queue (s : Site) (x : Nat) (stamp : Option Stamp) (runHandle : Option Nat) :
    Drives s (s.queue x stamp runHandle) := by
  refine ⟨[⟨x, .queued, stamp, runHandle⟩], rfl, fun n hn ↦ mem_singleton.mp hn ▸ rfl, fun m hm _ ↦ ?_⟩
  obtain ⟨m', hm', rfl⟩ := mem_map.mp hm
  by_cases hx : m'.info.id = x
  · exact .inr ⟨_, mem_singleton_self _, by rw [if_pos hx, hx]⟩
  · exact .inl ⟨m', hm', by rw [if_neg hx], by rw [if_neg hx]⟩

theorem drives_triggerDependencies (scope : Option Stamp) (stackScope : Bool) (ids : Option (List Nat))
    (deps : List Nat) (s : Site) : Drives s (triggerDependencies broker m scope stackScope ids s deps) := by
  induction deps generalizing s with
  | nil => exact .refl s
  | cons d deps ih =>
    unfold triggerDependencies
    split
    · have hqueue := drives_queue s d scope ((s.newestTask m.info.id).bind DestroyTask.runHandle)
      dsimp only
      split
      · exact hqueue.trans (ih _)
      · exact hqueue
    · exact ih s

theorem drives_runTerminalDetectionStack (s : Site) (id : Nat) : Drives s (runTerminalDetectionStack s id) := by
  unfold runTerminalDetectionStack
  split
  · exact .refl s
  · dsimp only
    split
    · exact .refl s
    · split
      · exact .of_modules rfl fun m hm _ ↦ ⟨m, hm, rfl, rfl⟩
      · exact .of_modules rfl fun m hm _ ↦ ⟨m, (mem_filter.mp hm).1, rfl, rfl⟩

theorem drives_declare (s : Site) (project : Nat) (v : Verdict) : Drives s (declare s project v) := by
  unfold declare
  split
  · refine .of_modules rfl fun m hm htr ↦ ?_
    obtain ⟨m', hm', rfl⟩ := mem_map.mp hm
    split at htr
    · cases htr
    · next hid => exact ⟨m', hm', by rw [if_neg hid], by rw [if_neg hid]⟩
  · exact .refl s

theorem drives_runTerminalDetection (m : SiteModule) (s : Site) : Drives s (runTerminalDetection m s) := by
  unfold runTerminalDetection
  split
  · exact .refl s
  · exact drives_declare ..
  · cases m.stack with
    | none => exact .refl s
    | some id => exact drives_runTerminalDetectionStack s id
  · cases m.stack with
    | none => exact drives_declare ..
    | some id => exact drives_runTerminalDetectionStack s id

variable (broker) in
theorem drives_triggerNextDestroyModule (m : SiteModule) (s : Site) :
    Drives s (triggerNextDestroyModule broker m s) := by
  unfold triggerNextDestroyModule
  dsimp only
  split
  · exact .refl s
  · split
    · exact drives_runTerminalDetection m s
    · exact (drives_triggerDependencies ..).trans (drives_runTerminalDetection m _)

end

/-! ### A pass -/

def TaskRow.drives (t : TaskRow) (status : ModuleStatus) : Bool :=
  (t.taskType == "destroy") == (status == destroying)

def Ledger.Without (l : Ledger) (kind : TaskRow → Bool) (m : SiteModule) : Prop :=
  ∀ t ∈ l.tasks, t.module = some m.info.id → kind t = true → t.status.active = false

section

variable {now : Int} {live : List String} {broker : Nat → Option String} {l l' : Ledger} {rest : List Nat}
  {m : SiteModule}

/-- The tasks are those that were there, reset, and new ones. A module in a transitional status without a task
is still to be looked at, or was there before without a task that drives it. -/
structure Accounted (now : Int) (live : List String) (l l' : Ledger) (rest : List Nat) : Prop where
  tasks : ∃ new, l'.tasks = l.tasks.map (resetTask now live) ++ new
  modules : ∀ m ∈ l'.modules, m.status.transitional = true → l'.Without (fun _ ↦ true) m →
    (m.status = destroying ∧ m.info.id ∈ rest) ∨
      ∃ m' ∈ l.modules, m'.info.id = m.info.id ∧ m'.status = m.status ∧ l.Without (·.drives m'.status) m'

theorem mem_staleModules {destroys : Bool} {t : TaskRow} (ht : t ∈ l.tasks) (hstale : t.isStale live = true)
    (hkind : (t.taskType == "destroy") = destroys) (hm : m ∈ l.modules) (hmodule : t.module = some m.info.id) :
    m.info.id ∈ staleModules live l destroys := by
  have hfind : (l.find m.info.id).isSome = true :=
    find?_isSome.mpr ⟨m, hm, beq_self_eq_true _⟩
  refine mem_eraseDups.mpr (mem_filterMap.mpr ⟨t, mem_filter.mpr ⟨ht, ?_⟩, ?_⟩)
  · simp [hstale, hkind]
  · rw [hmodule, Option.filter_some, if_pos hfind]

theorem transientToFailed_transitional {status : ModuleStatus}
    (h : (transientToFailed status).transitional = true) : status = destroying := by
  cases status <;> first | rfl | cases h

theorem resetTask_module (t : TaskRow) : (resetTask now live t).module = t.module := by
  unfold resetTask
  split <;> rfl

theorem resetTask_eq_self {t : TaskRow} (h : t.isStale live = false) : resetTask now live t = t :=
  if_neg (Bool.eq_false_iff.mp h)

theorem resetModule_id (ids : List Nat) (m : SiteModule) : (resetModule ids m).info.id = m.info.id := by
  unfold resetModule
  split <;> rfl

theorem resetModule_transitional {ids : List Nat} (h : (resetModule ids m).status.transitional = true) :
    (resetModule ids m).status = m.status ∧ (m.info.id ∈ ids → m.status = destroying) := by
  unfold resetModule at h ⊢
  split at h
  · next hmem =>
    have hdestroying := transientToFailed_transitional h
    rw [if_pos hmem]
    exact ⟨by rw [hdestroying]; rfl, fun _ ↦ hdestroying⟩
  · next hmem =>
    rw [if_neg hmem]
    exact ⟨rfl, fun h ↦ absurd (contains_iff_mem.mpr h) hmem⟩

theorem accounted_resetRows (l : Ledger) :
    Accounted now live l (resetRows now live l) (staleModules live l true) := by
  refine ⟨⟨[], (append_nil _).symm⟩, fun m hm htr hnone ↦ ?_⟩
  obtain ⟨m', hm', rfl⟩ := mem_map.mp hm
  obtain ⟨hstatus, hdestroying⟩ := resetModule_transitional htr
  have hid := resetModule_id (staleModules live l false) m'
  by_cases hdriven : l.Without (·.drives m'.status) m'
  · exact .inr ⟨m', hm', hid.symm, hstatus.symm, hdriven⟩
  -- a task that drives the module was reset, so it is stale
  unfold Ledger.Without at hdriven
  push Not at hdriven
  obtain ⟨t, ht, hmodule, hdrives, hactive⟩ := hdriven
  have hstale : t.isStale live = true := by
    by_contra hfresh
    have hself := @resetTask_eq_self now live t (Bool.eq_false_iff.mpr hfresh)
    have hdone := hnone _ (mem_map_of_mem ht) ((resetTask_module t).trans (hmodule.trans (by rw [hid]))) rfl
    rw [hself] at hdone
    exact hactive hdone
  by_cases hd : m'.status = destroying
  · have hkind : (t.taskType == "destroy") = true := by simpa [TaskRow.drives, hd] using hdrives
    exact .inl ⟨hstatus.trans hd, hid ▸ mem_staleModules ht hstale hkind hm' hmodule⟩
  · have hkind : (t.taskType == "destroy") = false := by simpa [TaskRow.drives, hd] using hdrives
    exact absurd (hdestroying (mem_staleModules ht hstale hkind hm' hmodule)) hd

theorem failDestroy_id (x : Nat) (m : SiteModule) : (failDestroy x m).info.id = m.info.id := by
  unfold failDestroy
  split <;> rfl

theorem accounted_redrive (h : Accounted now live l l' (m.info.id :: rest)) :
    Accounted now live l (redrive broker l' m) rest := by
  obtain ⟨⟨new, htasks⟩, hmodules⟩ := h
  obtain ⟨queued, hqueued, hactive, hdriven⟩ := drives_triggerNextDestroyModule broker m
    ({ l' with modules := l'.modules.map (failDestroy m.info.id) } : Ledger).site
  have hnew : (redrive broker l' m).tasks = l'.tasks ++
      queued.map (({ l' with modules := l'.modules.map (failDestroy m.info.id) } : Ledger).queuedRow broker) := by
    unfold redrive Ledger.onSite
    dsimp only
    rw [hqueued, drop_left]
  refine ⟨⟨_, by rw [hnew, htasks, append_assoc]⟩, fun m' hm' htr hnone ↦ ?_⟩
  rcases hdriven m' hm' htr with ⟨m₁, hm₁, hid, hstatus⟩ | ⟨n, hn, hmodule⟩
  · obtain ⟨m₂, hm₂, rfl⟩ := mem_map.mp hm₁
    have hsame : (failDestroy m.info.id m₂).status = m₂.status ∧
        (m₂.status = destroying → m₂.info.id ≠ m.info.id) := by
      rw [← hstatus] at htr
      unfold failDestroy at htr ⊢
      split at htr
      · cases htr
      · next hne =>
        rw [if_neg hne]
        exact ⟨rfl, fun hd heq ↦ hne ⟨heq, hd⟩⟩
    rw [failDestroy_id] at hid
    have hstatus₂ : m₂.status = m'.status := hsame.1.symm.trans hstatus
    have hnone₂ : l'.Without (fun _ ↦ true) m₂ := fun t ht hmodule hkind ↦
      hnone t (hnew ▸ mem_append_left _ ht) (hmodule.trans (by rw [hid])) hkind
    rcases hmodules m₂ hm₂ (hstatus₂ ▸ htr) hnone₂ with ⟨hd, hmem⟩ | ⟨m₀, hm₀, hid₀, hstatus₀, hwithout⟩
    · have hrest := mem_of_ne_of_mem (hsame.2 hd) hmem
      exact .inl ⟨hstatus₂ ▸ hd, hid ▸ hrest⟩
    · exact .inr ⟨m₀, hm₀, hid₀.trans hid, hstatus₀.trans hstatus₂, hwithout⟩
  · -- its new task is not terminal
    have hmem := hnew ▸ mem_append_right l'.tasks (mem_map_of_mem hn)
    have hdone := hnone _ hmem (congrArg some hmodule) rfl
    exact absurd (hdone.symm.trans (hactive n hn)) Bool.false_ne_true

theorem accounted_foldl (ms : List SiteModule) (h : Accounted now live l l' (ms.map (·.info.id))) :
    Accounted now live l (ms.foldl (redrive broker) l') [] := by
  induction ms generalizing l' with
  | nil => exact h
  | cons m ms ih => exact ih (accounted_redrive h)

theorem staleModules_loaded (l : Ledger) (destroys : Bool) :
    ((staleModules live l destroys).filterMap l.find).map (·.info.id) = staleModules live l destroys := by
  rw [map_filterMap]
  refine (filterMap_congr fun x hx ↦ ?_).trans filterMap_some
  obtain ⟨t, -, hmodule⟩ := mem_filterMap.mp (mem_eraseDups.mp hx)
  obtain ⟨m, hm⟩ := Option.isSome_iff_exists.mp (Option.filter_eq_some_iff.mp hmodule).2
  have hid := find?_some (p := fun m : SiteModule ↦ m.info.id == x) hm
  rw [hm, Option.map_some, eq_of_beq hid]

theorem accounted_resetStaleTasks (l : Ledger) : Accounted now live l (resetStaleTasks now live broker l) [] := by
  refine accounted_foldl _ ?_
  rw [staleModules_loaded]
  exact accounted_resetRows l

end

/-! ### The sweeps -/

def Stuck (l : Ledger) (m : SiteModule) : Prop :=
  m ∈ l.modules ∧ m.status.transitional = true ∧ l.Without (fun _ ↦ true) m

theorem resetTask_status_ne_iff {now : Int} {live : List String} {t : TaskRow} :
    (resetTask now live t).status ≠ t.status ↔ t.status.active = true ∧ t.isLive live = false := by
  have hstale : t.isStale live = true ↔ t.status.active = true ∧ t.isLive live = false := by
    rw [TaskRow.isStale, Bool.and_eq_true, Bool.not_eq_true']
  rw [← hstale, resetTask]
  split
  · next h =>
    refine iff_of_true (fun heq ↦ ?_) h
    have hactive := (hstale.mp h).1
    rw [← heq] at hactive
    cases hactive
  · next h => exact iff_of_false (not_not.mpr rfl) h

def loneModule (id : Nat) (status : ModuleStatus) : SiteModule := ⟨⟨id, [], none⟩, 1, none, status⟩

def queuedApply (module : Nat) (celeryTaskId : String) : TaskRow :=
  ⟨"apply", some module, 1, .queued, some celeryTaskId, "", none, none, none⟩

def oneTask : Ledger where
  modules := [loneModule 1 applying, loneModule 2 planning]
  stackRows := []
  stackProject _ := 1
  tasks := [queuedApply 1 "a"]
  endings := []

instance (l : Ledger) (m : SiteModule) : Decidable (Stuck l m) :=
  inferInstanceAs (Decidable (m ∈ l.modules ∧ m.status.transitional = true ∧
    ∀ t ∈ l.tasks, t.module = some m.info.id → true = true → t.status.active = false))

end BnkForge.Destroy.Scope
