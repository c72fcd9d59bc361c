import BnkForge.Module.Worker

/-!
# Superseded workers

A worker of `run_opentofu_apply` or `run_opentofu_destroy` is superseded once another one has
acquired the lock with a greater fence token. Its fenced writes are rejected from then on;
the handlers that run after the lock is released, and the completion hooks, write without the
fence (`backend/tasks/opentofu_tasks.py:919–969,1185–1278`,
`backend/tasks/_tofu_helpers.py:45–78`).
-/

namespace BnkForge.Module

open ModuleStatus Lock Transition

/-- The worker runs `run_opentofu_apply` or `run_opentofu_destroy`. -/
def Worker.changesInfra (w : Worker) : Bool := w.type = .apply || w.type = .destroy

/-- `w'` acquired the lock with a greater fence token than `w`. -/
def Worker.supersedes (w' w : Worker) : Bool :=
  match w.lock, w'.lock with
  | some l, some l' => w.changesInfra && w'.changesInfra && decide (l.fenceToken < l'.fenceToken)
  | _, _ => false

/-- Some worker has superseded `w`. -/
def Shop.superseded (s : Shop) (w : Worker) : Bool := s.workers.any fun w' ↦ w'.supersedes w

def SupersededKeeps (s : Shop) (e : ShopEvent) (t : Shop) : Prop :=
  ∀ k w, e.actor = some k → s.workers[k]? = some w → s.superseded w = true →
    t.row.status = s.row.status

def SupersededFenced (s : Shop) (e : ShopEvent) : Prop :=
  ∀ k ∈ e.actor, ∀ w ∈ s.workers[k]?, s.superseded w = true →
    ∀ status ∈ unfencedWrite w e, w.seen = some status ∨ s.row.status = status

instance (s : Shop) (e : ShopEvent) : Decidable (SupersededFenced s e) :=
  inferInstanceAs (Decidable (∀ k ∈ e.actor, ∀ w ∈ s.workers[k]?, s.superseded w = true →
    ∀ status ∈ unfencedWrite w e, w.seen = some status ∨ s.row.status = status))

/-! ### Tokens -/

def Shop.Bounded (s : Shop) : Prop :=
  ∀ w ∈ s.workers, ∀ l, w.lock = some l → l.fenceToken ≤ s.row.fence

section Bounded

variable {s t : Shop} {k : Nat} {w : Worker} {e : ShopEvent}

private theorem Shop.Bounded.of_row (h : s.Bounded) {m : ModuleRow} (hm : m.fence = s.row.fence) :
    Shop.Bounded ⟨m, s.workers⟩ := by
  intro w hw l hl
  rw [hm]
  exact h w hw l hl

private theorem Shop.Bounded.set (h : s.Bounded) {m : ModuleRow} (hm : s.row.fence ≤ m.fence)
    {w' : Worker} (hw' : ∀ l, w'.lock = some l → l.fenceToken ≤ m.fence) (k : Nat) :
    Shop.Bounded ⟨m, s.workers.set k w'⟩ := by
  intro w hw l hl
  rcases List.mem_or_eq_of_mem_set hw with hw | rfl
  · exact Nat.le_trans (h w hw l hl) hm
  · exact hw' l hl

private theorem Shop.Bounded.keeps (h : s.Bounded) (hw : w ∈ s.workers) {m : ModuleRow}
    (hm : m.fence = s.row.fence) {w' : Worker} (hl' : w'.lock = w.lock) :
    Shop.Bounded ⟨m, s.workers.set k w'⟩ := by
  apply h.set (Nat.le_of_eq hm.symm)
  intro l hl
  rw [hm]
  exact h w hw l (hl' ▸ hl)

private theorem Shop.Bounded.append (h : s.Bounded) (types : List TaskType) :
    Shop.Bounded ⟨s.row, s.workers ++ types.map Worker.queued⟩ := by
  intro w hw l hl
  rcases List.mem_append.mp hw with hw | hw
  · exact h w hw l hl
  · obtain ⟨type, _, rfl⟩ := List.mem_map.mp hw
    cases hl

private theorem bounded_fencedWrite (h : s.Bounded) (hw : w ∈ s.workers) {w' : Worker}
    (hl' : w'.lock = w.lock) (l : EntityLock) (target : ModuleStatus)
    (extra : List (String × ColumnValue)) : (fencedWrite s k w' l target extra).Bounded := by
  have hf := (row_fencedWrite s k w' l target extra).2
  rw [fence_transitionModuleStatus] at hf
  unfold fencedWrite at hf ⊢
  split at hf
  all_goals exact h.keeps hw hf hl'

private theorem bounded_acquireLock (h : s.Bounded) (hw : w ∈ s.workers) (reclaim : Nat)
    (now : Int) : (acquireLock s k w reclaim now).Bounded := by
  unfold acquireLock
  split
  · next base l heq =>
    obtain ⟨-, rfl, rfl⟩ := tryAcquire_eq_some heq
    apply h.set (Nat.le_succ _)
    intro l' hl'
    cases hl'
    exact Nat.le_refl _
  · next base heq =>
    cases tryAcquire_eq_none heq
    exact h.keeps hw rfl rfl

private theorem bounded_workerStep (h : s.Bounded) (hw : w ∈ s.workers)
    (hst : workerStep s k w e = some t) : t.Bounded := by
  have hleave := fence_leaveLock w.lock s.row
  cases e with
  | load _ =>
    simp only [workerStep] at hst
    split at hst <;> cases hst <;> exact h.keeps hw rfl rfl
  | expire _ =>
    cases hst
    exact h.keeps hw rfl rfl
  | acquire _ reclaim now =>
    simp only [workerStep, Option.ite_none_right_eq_some] at hst
    cases hst.2
    exact bounded_acquireLock h hw reclaim now
  | refresh _ now =>
    simp only [workerStep] at hst
    split at hst
    · cases hst
      exact h.of_row (lockFenceToken_refresh _ now _)
    · cases hst
  | write _ x extra =>
    simp only [workerStep] at hst
    split at hst
    · cases hst
      apply bounded_fencedWrite h hw
      rfl
    · cases hst
  | writeApplying _ =>
    simp only [workerStep] at hst
    split at hst
    · simp only [Option.ite_none_right_eq_some] at hst
      cases hst.2
      apply bounded_fencedWrite h hw
      rfl
    · cases hst
  | raise _ x =>
    simp only [workerStep, Option.ite_none_right_eq_some] at hst
    cases hst.2
    exact h.keeps hw hleave rfl
  | handle _ =>
    simp only [workerStep] at hst
    split at hst
    · cases hst
      unfold runHandler
      split <;> exact h.keeps hw (by simp) rfl
    · cases hst
  | skipDestroy _ =>
    simp only [workerStep, Option.ite_none_right_eq_some] at hst
    cases hst.2
    exact h.keeps hw (by simp) rfl
  | hook _ _ =>
    simp only [workerStep, Option.ite_none_right_eq_some] at hst
    cases hst.2
    exact h.keeps hw rfl rfl
  | commitHook _ =>
    simp only [workerStep] at hst
    split at hst
    · next status types _ =>
      cases hst
      have hset : Shop.Bounded ⟨ormWrite w.seen status s.row,
          s.workers.set k { w with seen := none, decided := none }⟩ :=
        h.keeps hw (by simp) rfl
      exact hset.append types
    · cases hst
  | finish _ =>
    simp only [workerStep] at hst
    split at hst
    · cases hst
    · split at hst
      · cases hst
        exact h.keeps hw hleave rfl
      · split at hst
        · cases hst
          exact h.keeps hw rfl rfl
        · cases hst
  | submit _ _ | forceRelease | sweep _ | cancel _ | resetStuck _ | adminStatus _ | janitor _ =>
    cases hst

private theorem bounded_shopStep (h : s.Bounded) (hst : shopStep s e = some t) : t.Bounded := by
  cases hk : e.actor with
  | some k =>
    obtain ⟨w, hw, hst⟩ := workerStep_of_shopStep hk hst
    exact bounded_workerStep h (List.mem_of_getElem? hw) hst
  | none =>
    cases e with
    | submit type status =>
      cases hst
      have hrow : Shop.Bounded ⟨{ s.row with status := status }, s.workers⟩ := h
      exact hrow.append [type]
    | forceRelease =>
      cases hst
      exact h.of_row (lockFenceToken_forceRelease _)
    | sweep now =>
      cases hst
      exact h.of_row (lockFenceToken_sweepStale now _)
    | cancel seen =>
      simp only [shopStep, Option.ite_none_left_eq_some] at hst
      cases hst.2
      intro w hw l hl
      obtain ⟨v, hv, rfl⟩ := List.mem_map.mp hw
      have hlock : v.lock = some l := by
        split at hl <;> exact hl
      have hrow := h v hv l hlock
      simp only
      split <;> exact hrow
    | resetStuck seen =>
      simp only [shopStep, Option.ite_none_right_eq_some] at hst
      cases hst.2
      exact h
    | adminStatus status =>
      cases hst
      exact h
    | janitor k =>
      obtain ⟨w, hw, hst⟩ := Option.bind_eq_some_iff.mp hst
      simp only [resetStaleTask, Option.ite_none_right_eq_some] at hst
      cases hst.2
      have hf : (if w.type = .destroy ↔ s.row.status = destroying then
          { s.row with status := failedOf s.row.status } else s.row).fence = s.row.fence := by
        split <;> rfl
      exact h.keeps (List.mem_of_getElem? hw) hf rfl
    | _ => cases hk

end Bounded

/-! ### Status changes of a superseded worker -/

theorem fence_ne_of_superseded {s : Shop} (h : s.Bounded) {w : Worker} {l : EntityLock}
    (hl : w.lock = some l) (hsup : s.superseded w = true) : s.row.fence ≠ l.fenceToken := by
  obtain ⟨w', hw', hs⟩ := List.any_eq_true.mp hsup
  simp only [Worker.supersedes, hl] at hs
  cases hl' : w'.lock with
  | none => simp [hl'] at hs
  | some l' =>
    simp only [hl', Bool.and_eq_true, decide_eq_true_eq] at hs
    have hle := h w' hw' l' hl'
    omega

theorem status_workerStep_eq_iff {s t : Shop} (h : s.Bounded) {k : Nat} {w : Worker}
    (hsup : s.superseded w = true) {e : ShopEvent} (hst : workerStep s k w e = some t) :
    t.row.status = s.row.status ↔
      ∀ status ∈ unfencedWrite w e, w.seen = some status ∨ s.row.status = status := by
  cases hn : unfencedWrite w e with
  | some status =>
    rw [status_workerStep_of_unfencedWrite hn hst, status_ormWrite_eq_iff]
    simp
  | none =>
    refine iff_of_true ?_ nofun
    cases hu : underLockWrite w e with
    | none => exact status_workerStep_of_no_write hu hn hst
    | some write =>
      obtain ⟨l, hl, hrow⟩ := status_workerStep_of_underLockWrite hu hst
      rw [hrow, transitionModuleStatus_superseded (fence_ne_of_superseded h hl hsup)]

/-- In every interleaving of workers on one row, no superseded worker changes the status
exactly when no superseded worker writes without the fence a status that neither its session
nor the row holds. -/
theorem supersededKeeps_iff {m : ModuleRow} {es : List ShopEvent} {s : Shop}
    (hrun : Run shopStep Free ⟨m, []⟩ es s) :
    AllSteps shopStep SupersededKeeps ⟨m, []⟩ es ↔
      Run shopStep SupersededFenced ⟨m, []⟩ es s := by
  have hinit : Shop.Bounded ⟨m, []⟩ := by
    intro w hw
    cases hw
  apply hrun.allSteps_iff hinit
  · intro a e b h hst
    exact bounded_shopStep h hst
  · intro a e b h hst
    constructor
    · intro hkeep k hk w hw hsup
      obtain ⟨w', hw', hst⟩ := workerStep_of_shopStep hk hst
      cases hw.symm.trans hw'
      exact (status_workerStep_eq_iff h hsup hst).mp (hkeep k w hk hw hsup)
    · intro hok k w hk hw hsup
      obtain ⟨w', hw', hst⟩ := workerStep_of_shopStep hk hst
      cases hw.symm.trans hw'
      exact (status_workerStep_eq_iff h hsup hst).mpr (hok k hk w hw hsup)

/-- Two applies are submitted; the first worker stops refreshing its lock and the second one
takes it over 40 seconds later. -/
def takeover : List ShopEvent :=
  [.submit .apply applying, .load 0, .acquire 0 30 0, .submit .apply applying, .load 1,
    .acquire 1 30 40000000]

/-- The first worker's fenced write is rejected, its lock-lost handler writes nothing, and the
second worker applies. -/
theorem supersededKeeps_rejectedWrite :
    ∃ s, exec shopStep ⟨plannedRow, []⟩
        (takeover ++ [.write 0 .success [], .handle 0, .write 1 .success []]) = some s ∧
      s.row.status = applied ∧
      AllSteps shopStep SupersededKeeps ⟨plannedRow, []⟩
        (takeover ++ [.write 0 .success [], .handle 0, .write 1 .success []]) := by
  refine ⟨_, rfl, rfl, ?_⟩
  exact (supersededKeeps_iff (Run.free_iff_exec.mpr rfl)).mpr (Run.iff_exec.mpr rfl)

/-- The first worker hits its soft time limit after the takeover: its handler sets
`apply_failed` while the second worker is applying. -/
theorem superseded_handler_writes :
    ¬ ∀ (m : ModuleRow) (es : List ShopEvent) (s : Shop),
      Run shopStep Free ⟨m, []⟩ es s → AllSteps shopStep SupersededKeeps ⟨m, []⟩ es := by
  intro h
  have hall := h plannedRow (takeover ++ [.raise 0 .softTimeLimit] ++ [.handle 0]) _
    (Run.free_iff_exec.mpr rfl)
  have hraised : Run shopStep Free ⟨plannedRow, []⟩ (takeover ++ [.raise 0 .softTimeLimit]) _ :=
    Run.free_iff_exec.mpr rfl
  have hstatus := hraised.allSteps_last hall rfl 0 _ rfl rfl rfl
  cases hstatus

end BnkForge.Module
