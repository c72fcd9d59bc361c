import BnkForge.Destroy.Wakeup
import BnkForge.Graph.Layers
import BnkForge.Lib.Potential

/-!
# Completeness of a project's destroy

A run all of whose destroys succeed and whose hooks behave comes to rest after a bounded
number of steps, and there every module that had infrastructure has been dispatched and is
gone. Along such a run the module locks belong to workers that have not ended, so that some
worker can always go on.
-/

namespace BnkForge.Destroy

open ModuleStatus Lock BnkForge.Module Transition List

variable {S : Teardown} {s t : Chain} {k : Nat} {w w' : DestroyWorker}

/-! ### Locks -/

def Chain.lockAt (s : Chain) (x : Nat) : Option (Nat × Option Nat × Nat) := (s.rows x).map lockOf

theorem lockAt_onRow_of_ne {x y : Nat} (h : y ≠ x) (f : ModuleRow → ModuleRow) :
    (s.onRow x f).lockAt y = s.lockAt y := by
  simp only [Chain.lockAt, Chain.onRow, if_neg h]

theorem lockAt_onRow_self (x : Nat) (f : ModuleRow → ModuleRow) :
    (s.onRow x f).lockAt x = (s.rows x).map fun m ↦ lockOf (f m) := by
  simp only [Chain.lockAt, Chain.onRow, if_true, Option.map_map]
  rfl

theorem lockAt_onRow_of_keeps {x : Nat} {f : ModuleRow → ModuleRow}
    (hf : ∀ m, s.rows x = some m → lockOf (f m) = lockOf m) : (s.onRow x f).lockAt = s.lockAt := by
  funext y
  by_cases hy : y = x
  · subst hy
    rw [lockAt_onRow_self, Chain.lockAt]
    cases hrow : s.rows y with
    | none => rfl
    | some m => rw [Option.map_some, Option.map_some, hf m hrow]
  · exact lockAt_onRow_of_ne hy f

theorem lockAt_dispatch (seen : ModuleStatus) (x : Nat) :
    (s.dispatch seen x).lockAt = s.lockAt := by
  apply lockAt_onRow_of_keeps
  intro m _
  unfold ormWrite
  split <;> rfl

/-- Who holds the module locks in smooth runs. -/
structure LockInv (S : Teardown) (s : Chain) : Prop where
  modules : ∀ w ∈ s.workers, w.module ∈ S.ids
  decided : ∀ w ∈ s.workers, ∀ d seen deps, w.phase = .decided d seen deps → d ∈ S.ids
  early : ∀ w ∈ s.workers, w.phase = .queued ∨ w.phase = .loaded → w.lock = none
  working : ∀ w ∈ s.workers, w.phase = .working → ∃ l, w.lock = some l
  held : ∀ k w l, s.workers[k]? = some w → w.phase ≠ .ended → w.lock = some l →
    l.taskId = k ∧ s.lockAt w.module = some (l.entityId, some k, l.fenceToken)
  holder : ∀ x id j fence, s.lockAt x = some (id, some j, fence) →
    ∃ w l, s.workers[j]? = some w ∧ w.module = x ∧ w.phase ≠ .ended ∧ w.lock = some l

/-- The workers of a state in which only the worker at `k` has changed. -/
private theorem getElem?_of_set {j : Nat} {v : DestroyWorker}
    (hws : t.workers = s.workers.set k w') (hv : t.workers[j]? = some v) :
    j = k ∧ v = w' ∨ j ≠ k ∧ s.workers[j]? = some v := by
  rw [hws] at hv
  by_cases hj : j = k
  · subst hj
    obtain ⟨hlt, hget⟩ := List.getElem?_eq_some_iff.mp hv
    rw [getElem_set_self] at hget
    exact Or.inl ⟨rfl, hget.symm⟩
  · rw [getElem?_set_ne (Ne.symm hj)] at hv
    exact Or.inr ⟨hj, hv⟩

private theorem LockInv.move (h : LockInv S s) (hk : s.workers[k]? = some w)
    (hws : t.workers = s.workers.set k w') (hlocks : t.lockAt = s.lockAt)
    (hm : w'.module = w.module) (hl : w'.lock = w.lock) (hp : w.phase ≠ .ended)
    (hp' : w'.phase ≠ .ended)
    (hdecided : ∀ d seen deps, w'.phase = .decided d seen deps → d ∈ S.ids)
    (hearly : w'.phase = .queued ∨ w'.phase = .loaded → w.lock = none)
    (hworking : w'.phase = .working → ∃ l, w.lock = some l) : LockInv S t := by
  have hw : w ∈ s.workers := mem_of_getElem? hk
  obtain ⟨hlt, -⟩ := List.getElem?_eq_some_iff.mp hk
  have hself : t.workers[k]? = some w' := by
    rw [hws]
    exact getElem?_set_self hlt
  have hnew : ∀ v ∈ t.workers, v ∈ s.workers ∨ v = w' :=
    fun v hv ↦ mem_or_eq_of_mem_set (hws ▸ hv)
  constructor
  · intro v hv
    rcases hnew v hv with hv | rfl
    · exact h.modules v hv
    · rw [hm]
      exact h.modules w hw
  · intro v hv
    rcases hnew v hv with hv | rfl
    · exact h.decided v hv
    · exact hdecided
  · intro v hv
    rcases hnew v hv with hv | rfl
    · exact h.early v hv
    · rw [hl]
      exact hearly
  · intro v hv
    rcases hnew v hv with hv | rfl
    · exact h.working v hv
    · rw [hl]
      exact hworking
  · intro j v l hv hvp hvl
    rw [hlocks]
    rcases getElem?_of_set hws hv with ⟨rfl, rfl⟩ | ⟨-, hv⟩
    · rw [hm]
      exact h.held j w l hk hp (hl ▸ hvl)
    · exact h.held j v l hv hvp hvl
  · intro x id j fence hx
    rw [hlocks] at hx
    obtain ⟨v, l, hv, hvx, hvp, hvl⟩ := h.holder x id j fence hx
    by_cases hj : j = k
    · subst hj
      cases hk.symm.trans hv
      exact ⟨w', l, hself, hm.trans hvx, hp', hl.trans hvl⟩
    · refine ⟨v, l, ?_, hvx, hvp, hvl⟩
      rw [hws, getElem?_set_ne (Ne.symm hj)]
      exact hv

private theorem LockInv.congr (h : LockInv S s) (hws : t.workers = s.workers)
    (hlocks : t.lockAt = s.lockAt) : LockInv S t := by
  constructor
  · rw [hws]
    exact h.modules
  · rw [hws]
    exact h.decided
  · rw [hws]
    exact h.early
  · rw [hws]
    exact h.working
  · rw [hws, hlocks]
    exact h.held
  · rw [hws, hlocks]
    exact h.holder

private theorem LockInv.dispatch (h : LockInv S s) {d : Nat} (hd : d ∈ S.ids)
    (seen : ModuleStatus) : LockInv S (s.dispatch seen d) := by
  have hnew : ∀ v ∈ (s.dispatch seen d).workers, v ∈ s.workers ∨ v = ⟨d, .queued, none, .queued⟩ := by
    intro v hv
    rwa [workers_dispatch, mem_append, mem_singleton] at hv
  constructor
  · intro v hv
    rcases hnew v hv with hv | rfl
    · exact h.modules v hv
    · exact hd
  · intro v hv
    rcases hnew v hv with hv | rfl
    · exact h.decided v hv
    · exact nofun
  · intro v hv
    rcases hnew v hv with hv | rfl
    · exact h.early v hv
    · exact fun _ ↦ rfl
  · intro v hv
    rcases hnew v hv with hv | rfl
    · exact h.working v hv
    · exact nofun
  · intro j v l hv hvp hvl
    rw [lockAt_dispatch]
    rw [workers_dispatch, getElem?_append] at hv
    split at hv
    · exact h.held j v l hv hvp hvl
    · rw [getElem?_singleton, Option.ite_none_right_eq_some] at hv
      cases hv.2
      cases hvl
  · intro x id j fence hx
    rw [lockAt_dispatch] at hx
    obtain ⟨v, l, hv, hrest⟩ := h.holder x id j fence hx
    obtain ⟨hlt, -⟩ := List.getElem?_eq_some_iff.mp hv
    refine ⟨v, l, ?_, hrest⟩
    rw [workers_dispatch, getElem?_append_left hlt]
    exact hv

private theorem LockInv.acquire (h : LockInv S s) (hk : s.workers[k]? = some w)
    {m : ModuleRow} (hm : s.rows w.module = some m) (hfree : m.base.holdingTaskId = none)
    {reclaim : Nat} {now : Int} {base : Row ColumnValue} {l : EntityLock}
    (hl : tryAcquire .projectModules reclaim m.base.id k now m.base = (base, some l)) :
    LockInv S ((s.onRow w.module fun m ↦ { m with base := base }).setWorker k
      { w with lock := some l, phase := .working }) := by
  have hw : w ∈ s.workers := mem_of_getElem? hk
  obtain ⟨hlt, -⟩ := List.getElem?_eq_some_iff.mp hk
  have hnew : ∀ v ∈ s.workers.set k { w with lock := some l, phase := .working },
      v ∈ s.workers ∨ v = { w with lock := some l, phase := .working } :=
    fun v hv ↦ mem_or_eq_of_mem_set hv
  obtain ⟨-, rfl, rfl⟩ := tryAcquire_eq_some hl
  have hnobody : ∀ id j fence, s.lockAt w.module ≠ some (id, some j, fence) := by
    intro id j fence heq
    simp [Chain.lockAt, hm, lockOf, hfree] at heq
  constructor
  · intro v hv
    rcases hnew v hv with hv | rfl
    · exact h.modules v hv
    · exact h.modules w hw
  · intro v hv
    rcases hnew v hv with hv | rfl
    · exact h.decided v hv
    · exact nofun
  · intro v hv
    rcases hnew v hv with hv | rfl
    · exact h.early v hv
    · exact nofun
  · intro v hv
    rcases hnew v hv with hv | rfl
    · exact h.working v hv
    · exact fun _ ↦ ⟨_, rfl⟩
  · intro j v l hv hvp hvl
    rcases getElem?_of_set rfl hv with ⟨rfl, rfl⟩ | ⟨-, hv⟩
    · cases hvl
      refine ⟨rfl, ?_⟩
      exact (lockAt_onRow_self w.module _).trans (by rw [hm]; rfl)
    · obtain ⟨htask, hlock⟩ := h.held j v l hv hvp hvl
      have hne : v.module ≠ w.module := by
        intro heq
        rw [heq] at hlock
        exact hnobody _ _ _ hlock
      exact ⟨htask, (lockAt_onRow_of_ne hne _).trans hlock⟩
  · intro x id j fence hx
    by_cases hxw : x = w.module
    · subst hxw
      have hj := (lockAt_onRow_self w.module _).symm.trans hx
      rw [hm] at hj
      cases hj
      exact ⟨_, _, getElem?_set_self hlt, rfl, nofun, rfl⟩
    · have hx := (lockAt_onRow_of_ne hxw _).symm.trans hx
      obtain ⟨v, l, hv, hvx, hrest⟩ := h.holder x id j fence hx
      have hjk : k ≠ j := by
        rintro rfl
        cases hk.symm.trans hv
        exact hxw hvx.symm
      exact ⟨v, l, (getElem?_set_ne hjk).trans hv, hvx, hrest⟩

private theorem lockAt_leaveTo_of_ne {x : Nat} (hx : x ≠ w.module) (phase : DestroyPhase) :
    (leaveTo s k w phase).lockAt x = s.lockAt x :=
  lockAt_onRow_of_ne hx _

private theorem LockInv.lockAt_leaveTo (h : LockInv S s) (hk : s.workers[k]? = some w)
    (hp : w.phase ≠ .ended) (phase : DestroyPhase) :
    (w.lock = none ∧ (leaveTo s k w phase).lockAt = s.lockAt) ∨
      ∃ l, w.lock = some l ∧ ∀ id j fence,
        (leaveTo s k w phase).lockAt w.module ≠ some (id, some j, fence) := by
  cases hl : w.lock with
  | none =>
    refine Or.inl ⟨rfl, ?_⟩
    apply lockAt_onRow_of_keeps
    intro m _
    rw [hl]
    rfl
  | some l =>
    refine Or.inr ⟨l, rfl, fun id j fence heq ↦ ?_⟩
    obtain ⟨htask, hlock⟩ := h.held k w l hk hp hl
    obtain ⟨m, hm, hof⟩ := Option.map_eq_some_iff.mp hlock
    obtain ⟨hid, hholder, hfence⟩ : m.base.id = l.entityId ∧ m.base.holdingTaskId = some k ∧
        m.base.lockFenceToken = l.fenceToken := by simpa [lockOf] using hof
    have hheld : m.base.heldBy l = true := by
      simp [Row.heldBy, hid, hholder, hfence, htask]
    have hgone := (lockAt_onRow_self w.module (leaveLock w.lock)).symm.trans heq
    rw [hm, hl] at hgone
    simp [lockOf, leaveLock, onLockColumns, Lock.release, hheld, Row.clear] at hgone

private theorem LockInv.close (h : LockInv S s) (hk : s.workers[k]? = some w)
    (hp : w.phase ≠ .ended) : LockInv S (leaveTo s k w .ended) := by
  have hw : w ∈ s.workers := mem_of_getElem? hk
  have hws : (leaveTo s k w .ended).workers = s.workers.set k { w with phase := .ended } := rfl
  have hnew : ∀ v ∈ (leaveTo s k w .ended).workers, v ∈ s.workers ∨ v = { w with phase := .ended } :=
    fun v hv ↦ mem_or_eq_of_mem_set hv
  have hgone := h.lockAt_leaveTo hk hp .ended
  constructor
  · intro v hv
    rcases hnew v hv with hv | rfl
    · exact h.modules v hv
    · exact h.modules w hw
  · intro v hv
    rcases hnew v hv with hv | rfl
    · exact h.decided v hv
    · exact nofun
  · intro v hv
    rcases hnew v hv with hv | rfl
    · exact h.early v hv
    · exact nofun
  · intro v hv
    rcases hnew v hv with hv | rfl
    · exact h.working v hv
    · exact nofun
  · intro j v l hv hvp hvl
    rcases getElem?_of_set hws hv with ⟨rfl, rfl⟩ | ⟨hj, hv⟩
    · exact absurd rfl hvp
    · obtain ⟨htask, hlock⟩ := h.held j v l hv hvp hvl
      rcases hgone with ⟨-, heq⟩ | ⟨lw, hlw, -⟩
      · exact ⟨htask, by rw [heq]; exact hlock⟩
      · -- a row has one holder
        have hne : v.module ≠ w.module := by
          intro heq
          have hown := (h.held k w lw hk hp hlw).2
          rw [← heq, hlock] at hown
          simp only [Option.some.injEq, Prod.mk.injEq] at hown
          exact hj hown.2.1
        exact ⟨htask, (lockAt_leaveTo_of_ne hne _).trans hlock⟩
  · intro x id j fence hx
    by_cases hxw : x = w.module ∧ w.lock ≠ none
    · obtain ⟨rfl, hsome⟩ := hxw
      rcases hgone with ⟨hnone, -⟩ | ⟨-, -, hfree⟩
      · exact absurd hnone hsome
      · exact absurd hx (hfree id j fence)
    · have hxs : s.lockAt x = some (id, some j, fence) := by
        rcases hgone with ⟨-, heq⟩ | ⟨lw, hlw, -⟩
        · rwa [heq] at hx
        · have hne : x ≠ w.module := by
            intro heq
            rw [hlw] at hxw
            exact hxw ⟨heq, nofun⟩
          exact (lockAt_leaveTo_of_ne hne _).symm.trans hx
      obtain ⟨v, l, hv, hvx, hvp, hvl⟩ := h.holder x id j fence hxs
      have hjk : k ≠ j := by
        rintro rfl
        cases hk.symm.trans hv
        exact hxw ⟨hvx.symm, by rw [hvl]; exact nofun⟩
      exact ⟨v, l, (getElem?_set_ne hjk).trans hv, hvx, hvp, hvl⟩

theorem lockInv_step (hS : S.scope = .project) {start : Nat → Option ModuleStatus}
    (h : WakeInv S start s) (hlocks : LockInv S s) {e : ChainEvent} (hok : Smooth S s e)
    (hst : chainStep S s e = some t) : LockInv S t := by
  cases advances_of_chainStep hS hok (h.ne_recover hst) hst with
  | @load k w hk hp =>
    have hnone := hlocks.early w (mem_of_getElem? hk) (Or.inl hp)
    exact hlocks.move hk rfl rfl rfl rfl (by simp [hp]) (by simp) (by simp) (fun _ ↦ hnone) (by simp)
  | acquire hk hp hm hfree hl => exact hlocks.acquire hk hm hfree hl
  | @refresh k now w l hk hl =>
    refine hlocks.congr rfl (lockAt_onRow_of_keeps ?_)
    intro m _
    simp only [onLockColumns, lockOf, Lock.refresh]
    split <;> rfl
  | @finish k e w f _ _ hk hlive _ hf =>
    have hp : w.phase ≠ .ended := by
      intro hp
      simp [DestroyWorker.live, hp] at hlive
    exact hlocks.move hk rfl (lockAt_onRow_of_keeps fun m hm ↦ (hf m hm).2) rfl rfl hp (by simp)
      (by simp) (by simp) (by simp)
  | @progress k w hk hp =>
    have hp : w.phase ≠ .ended := by
      intro hended
      simp [hended] at hp
    exact hlocks.move hk rfl rfl rfl rfl hp (by simp) (by simp) (by simp) (by simp)
  | looked hk hp =>
    exact hlocks.move hk rfl rfl rfl rfl (by simp [hp]) (by simp) (by simp) (by simp) (by simp)
  | @decide k d w seen deps hk hp ht =>
    have hd : d ∈ S.ids := by
      apply (h.present d).mp
      unfold triggerTest at ht
      split at ht
      · next status hstatus =>
        rw [hstatus]
        rfl
      · cases ht
    refine hlocks.move hk rfl rfl rfl rfl (by simp [hp]) (by simp) ?_ (by simp) (by simp)
    intro d' seen' deps' hp'
    cases hp'
    exact hd
  | pass hk hp _ =>
    exact hlocks.move hk rfl rfl rfl rfl (by simp [hp]) (by simp) (by simp) (by simp) (by simp)
  | @dispatch k d w seen deps hk hp _ =>
    have hd := hlocks.decided w (mem_of_getElem? hk) d seen deps hp
    have hmove : LockInv S (s.setWorker k { w with phase := .trigger deps }) :=
      hlocks.move hk rfl rfl rfl rfl (by simp [hp]) (by simp) (by simp) (by simp) (by simp)
    exact hmove.dispatch hd seen
  | detect hk hp =>
    exact hlocks.move hk rfl rfl rfl rfl (by simp [hp]) (by simp) (by simp) (by simp) (by simp)
  | @close k w ids hk hp =>
    have hmap : LockInv S
        (s.mapStatus fun x status ↦ if ids.contains x then destroyed else status) := by
      refine hlocks.congr rfl ?_
      funext x
      simp only [Chain.lockAt, Chain.mapStatus, Option.map_map]
      rfl
    exact hmap.close hk (by simp [hp])

private theorem lockInv_waveDispatch (h : LockInv S s) {m : DestroyModule} (hm : m ∈ S.modules) :
    LockInv S (waveDispatch S s m) := by
  unfold waveDispatch
  split
  · split
    · exact h.dispatch (mem_map_of_mem hm) _
    · exact h
  · exact h

theorem lockInv_firstWave (force : Bool) {rows : Nat → Option ModuleRow}
    (hfree : ∀ x m, rows x = some m → m.base.holdingTaskId = none) :
    LockInv S (dispatchFirstDestroyWave S force (Chain.start S rows)) := by
  unfold dispatchFirstDestroyWave
  have hbegin : ∀ s₀ : Chain, s₀.workers = [] → s₀.lockAt = (Chain.start S rows).lockAt →
      LockInv S s₀ := by
    intro s₀ hws hlocks
    have hholder : ∀ x id j fence, s₀.lockAt x ≠ some (id, some j, fence) := by
      intro x id j fence hx
      rw [hlocks] at hx
      obtain ⟨m, hm, hof⟩ := Option.map_eq_some_iff.mp hx
      simp [lockOf, hfree x m hm] at hof
    constructor <;> simp [hws, hholder]
  generalize hs₀ : (if force && S.scope == .project then forceDestroy S (Chain.start S rows)
    else Chain.start S rows) = s₀
  have hs : LockInv S s₀ := by
    rw [← hs₀]
    split
    · apply hbegin _ rfl
      funext x
      simp only [Chain.lockAt, forceDestroy, Chain.mapStatus, Option.map_map]
      rfl
    · exact hbegin _ rfl rfl
  clear hs₀
  have hall : ∀ ms : List DestroyModule, (∀ m ∈ ms, m ∈ S.modules) → ∀ s₀, LockInv S s₀ →
      LockInv S (ms.foldl (waveDispatch S) s₀) := by
    intro ms
    induction ms with
    | nil => exact fun _ _ h ↦ h
    | cons m ms ih =>
      intro hms s₀ h
      exact ih (fun x hx ↦ hms x (mem_cons_of_mem m hx)) _
        (lockInv_waveDispatch h (hms m mem_cons_self))
  exact hall S.modules (fun _ h ↦ h) s₀ hs

/-! ### The bound -/

/-- The heartbeats of a worker, the only steps without an end of their own. -/
def ChainEvent.isRefresh : ChainEvent → Bool
  | .refresh _ _ => true
  | _ => false

/-- The steps of a trigger that has `deps` in front of it, and those of the workers it may
dispatch, when a task for `d` costs `cost d`. -/
def triggerCost (cost : Nat → Nat) (deps : List Nat) : Nat :=
  3 + (deps.map fun d ↦ 2 + cost d).sum

/-- The steps that a worker may still take. -/
def DestroyWorker.potential (S : Teardown) (cost : Nat → Nat) (w : DestroyWorker) : Nat :=
  match w.phase with
  | .queued => 4 + triggerCost cost (S.dependencies w.module)
  | .loaded => 3 + triggerCost cost (S.dependencies w.module)
  | .working | .raised _ => 2 + triggerCost cost (S.dependencies w.module)
  | .wrote | .marked => 1 + triggerCost cost (S.dependencies w.module)
  | .trigger deps => triggerCost cost deps
  | .decided d _ deps => 1 + cost d + triggerCost cost deps
  | .detect => 2
  | .closing _ => 1
  | .ended => 0

/-- The steps that the workers of a run may still take. -/
def Chain.potential (S : Teardown) (cost : Nat → Nat) (s : Chain) : Nat :=
  (s.workers.map (DestroyWorker.potential S cost)).sum

section Bound

variable {cost : Nat → Nat}

private theorem potential_lowers {n : Nat} (hk : s.workers[k]? = some w)
    (hws : t.workers = s.workers.set k w')
    (hlt : w'.potential S cost + n ≤ w.potential S cost) :
    t.potential S cost + n ≤ s.potential S cost := by
  have hset := Potential.sum_set (DestroyWorker.potential S cost) w' hk
  rw [← hws] at hset
  simp only [Chain.potential]
  omega

private theorem one_of_isRefresh (e : ChainEvent) : (if !e.isRefresh then 1 else 0) ≤ 1 := by
  split <;> decide

private theorem potential_step
    (hcost : ∀ x, cost x = 7 + ((S.dependencies x).map fun d ↦ 2 + cost d).sum) {e : ChainEvent}
    (hst : Advances S s e t) :
    t.potential S cost + (if !e.isRefresh then 1 else 0) ≤ s.potential S cost := by
  cases hst with
  | load hk hp | acquire hk hp | decide hk hp _ | pass hk hp _ =>
    refine potential_lowers hk rfl ?_
    simp only [DestroyWorker.potential, hp, triggerCost, ChainEvent.isRefresh, Bool.not_false,
      if_true, map_cons, sum_cons]
    omega
  | looked hk hp | detect hk hp | close hk hp =>
    exact potential_lowers hk rfl
      (by simp [DestroyWorker.potential, hp, triggerCost, ChainEvent.isRefresh])
  | refresh _ _ => exact le_refl (s.potential S cost)
  | @finish k e w f _ _ hk hlive hp _ =>
    have hone := one_of_isRefresh e
    have hw : 2 + triggerCost cost (S.dependencies w.module) ≤ w.potential S cost := by
      cases hphase : w.phase <;> simp_all [DestroyWorker.potential, DestroyWorker.live]
    refine potential_lowers hk rfl ?_
    simp only [DestroyWorker.potential] at hw ⊢
    omega
  | @progress k w hk hp =>
    refine potential_lowers hk rfl ?_
    rcases hp with hp | hp
    · simp only [DestroyWorker.potential, hp, ChainEvent.isRefresh, Bool.not_false, if_true]
      omega
    · simp only [DestroyWorker.potential, hp, ChainEvent.isRefresh, Bool.not_false, if_true]
      omega
  | @dispatch k d w seen deps hk hp _ =>
    -- the trigger has paid for the task that it queues
    have hown : (s.setWorker k { w with phase := .trigger deps }).potential S cost +
        (1 + cost d) ≤ s.potential S cost := by
      refine potential_lowers hk rfl ?_
      simp [DestroyWorker.potential, hp]
      omega
    have hnew : ((s.setWorker k { w with phase := .trigger deps }).dispatch seen d).potential S cost =
        (s.setWorker k { w with phase := .trigger deps }).potential S cost + cost d := by
      have hqueued : (⟨d, .queued, none, .queued⟩ : DestroyWorker).potential S cost = cost d := by
        rw [hcost d]
        simp only [DestroyWorker.potential, triggerCost]
        omega
      simp [Chain.potential, hqueued]
    rw [hnew]
    simp only [ChainEvent.isRefresh, Bool.not_false, if_true]
    omega

end Bound

/-! ### Progress -/

/-- The events that `chainStep` leaves to the worker. -/
private theorem chainStep_eq_workerStep {e : ChainEvent} {m : ModuleRow} (he : e.actor = some k)
    (hv : e ≠ .vanish k) (hk : s.workers[k]? = some w) (hm : s.rows w.module = some m) :
    chainStep S s e = workerStep S s k w m e := by
  cases e with
  | firstWave _ | outside _ _ | recover _ _ => cases he
  | vanish _ =>
    cases he
    exact absurd rfl hv
  | _ =>
    cases he
    simp [chainStep, ChainEvent.actor, hk, hm]

/-- Some worker can go on with other than a heartbeat. -/
def CanAdvance (S : Teardown) (s : Chain) : Prop :=
  ∃ e t, Smooth S s e ∧ chainStep S s e = some t ∧ e.isRefresh = false

variable {start : Nat → Option ModuleStatus}

private theorem row_of_mem_ids (h : WakeInv S start s) {x : Nat} (hx : x ∈ S.ids) :
    ∃ m, s.rows x = some m := by
  have hsome := (h.present x).mpr hx
  rw [Chain.statusOf, Option.isSome_map] at hsome
  exact Option.isSome_iff_exists.mp hsome

private theorem canAdvance_of_workerStep {e : ChainEvent} {m : ModuleRow} (he : e.actor = some k)
    (hv : e ≠ .vanish k) (hbeat : e.isRefresh = false) (hk : s.workers[k]? = some w)
    (hm : s.rows w.module = some m) (hok : Smooth S s e)
    (hst : (workerStep S s k w m e).isSome = true) : CanAdvance S s := by
  obtain ⟨t, ht⟩ := Option.isSome_iff_exists.mp hst
  exact ⟨e, t, hok, (chainStep_eq_workerStep he hv hk hm).trans ht, hbeat⟩

private theorem canAdvance_of_ahead (h : WakeInv S start s) (hlocks : LockInv S s)
    (hw : w ∈ s.workers) {x : Nat} (ha : ahead S w x) : CanAdvance S s := by
  obtain ⟨k, hk⟩ := getElem?_of_mem hw
  obtain ⟨m, hm⟩ := row_of_mem_ids h (hlocks.modules w hw)
  cases hp : w.phase with
  | wrote =>
    apply canAdvance_of_workerStep (e := .progress k) rfl nofun rfl hk hm ⟨trivial, trivial⟩
    simp [workerStep, hp]
  | trigger deps =>
    apply canAdvance_of_workerStep (e := .test k) rfl nofun rfl hk hm ⟨trivial, trivial⟩
    cases deps with
    | nil => simp [workerStep, hp]
    | cons d deps => cases ht : triggerTest S s d <;> simp [workerStep, hp, ht]
  | decided d seen deps =>
    obtain ⟨md, hmd⟩ := row_of_mem_ids h (hlocks.decided w hw d seen deps hp)
    apply canAdvance_of_workerStep (e := .commitDispatch k) rfl nofun rfl hk hm ⟨trivial, trivial⟩
    simp [workerStep, hp, hmd]
  | _ => simp [ahead, hp] at ha

private theorem inClusterFailures_of_idle (h : WakeInv S start s)
    (hahead : ∀ w ∈ s.workers, ∀ x, ¬ ahead S w x) : inClusterFailures S s = [] := by
  unfold inClusterFailures
  split
  · next hterm =>
    rw [Bool.and_eq_true, all_eq_true] at hterm
    have hbusy : ∀ x, s.statusOf x ≠ some destroying := by
      intro x hx
      have hids : x ∈ S.ids := (h.present x).mp (by rw [hx]; rfl)
      obtain ⟨m, hm, rfl⟩ := mem_map.mp hids
      have hdone := hterm.1 destroying (mem_filterMap.mpr ⟨m, hm, hx⟩)
      cases hdone
    have hgone := h.noInfra_of_idle hbusy hahead
    rw [map_eq_nil_iff, failedModules, filter_eq_nil_iff]
    intro m _ hfailed
    have hno := hgone m.id destroyFailed (beq_iff_eq.mp hfailed)
    cases hno
  · rfl

private theorem canAdvance_of_begun (hS : S.scope = .project) (h : WakeInv S start s)
    (hlocks : LockInv S s) (hk : s.workers[k]? = some w) (hp : w.phase ≠ .ended)
    (hbegun : w.phase ≠ .loaded) : CanAdvance S s := by
  have hw : w ∈ s.workers := mem_of_getElem? hk
  obtain ⟨m, hm⟩ := row_of_mem_ids h (hlocks.modules w hw)
  by_cases hidle : ∀ v ∈ s.workers, ∀ x, ¬ ahead S v x
  · have hsmooth := h.smooth w hw
    cases hphase : w.phase with
    | queued =>
      apply canAdvance_of_workerStep (e := .load k) rfl (by simp) rfl hk hm ⟨trivial, trivial⟩
      simp [workerStep, hphase]
    | loaded => exact absurd hphase hbegun
    | working =>
      obtain ⟨l, hl⟩ := hlocks.working w hw hphase
      have hfence : ∀ v ∈ s.workers[k]?, ∀ lv ∈ v.lock, ∀ mv ∈ s.rows v.module,
          mv.fence = lv.fenceToken := by
        intro v hv lv hlv mv hmv
        cases hk.symm.trans hv
        cases hl.symm.trans hlv
        have hlock := (hlocks.held k w l hk hp hl).2
        rw [Chain.lockAt, hmv] at hlock
        simp only [lockOf, Option.map_some, Option.some.injEq, Prod.mk.injEq] at hlock
        exact hlock.2.2
      apply canAdvance_of_workerStep (e := .write k .success destroying [("outputs", .null)]) rfl
        (by simp) rfl hk hm ⟨⟨rfl, (by simp), by decide, hfence⟩, trivial⟩
      simp [workerStep, hphase, hl, fencedTarget]
    | wrote =>
      apply canAdvance_of_workerStep (e := .progress k) rfl (by simp) rfl hk hm ⟨trivial, trivial⟩
      simp [workerStep, hphase]
    | trigger deps =>
      cases deps with
      | nil =>
        apply canAdvance_of_workerStep (e := .test k) rfl (by simp) rfl hk hm ⟨trivial, trivial⟩
        simp [workerStep, hphase]
      | cons d deps => exact absurd (by simp [ahead, hphase]) (hidle w hw d)
    | decided d seen deps => exact absurd (by simp [ahead, hphase]) (hidle w hw d)
    | detect =>
      apply canAdvance_of_workerStep (e := .detect k) rfl (by simp) rfl hk hm
        ⟨trivial, inClusterFailures_of_idle h hidle⟩
      simp [workerStep, hphase, hS]
    | closing ids =>
      apply canAdvance_of_workerStep (e := .writeOff k) rfl (by simp) rfl hk hm ⟨trivial, trivial⟩
      simp [workerStep, hphase]
    | ended => exact absurd hphase hp
    | raised _ | marked => simp [DestroyWorker.smooth, hphase] at hsmooth
  · simp only [not_forall, not_not] at hidle
    obtain ⟨v, hv, x, ha⟩ := hidle
    exact canAdvance_of_ahead h hlocks hv ha

private theorem canAdvance_of_not_atRest (hS : S.scope = .project) (h : WakeInv S start s)
    (hlocks : LockInv S s) (hrest : ¬ AtRest s) : CanAdvance S s := by
  simp only [AtRest, not_forall] at hrest
  obtain ⟨w, hw, hp⟩ := hrest
  obtain ⟨k, hk⟩ := getElem?_of_mem hw
  by_cases hloaded : w.phase = .loaded
  · obtain ⟨m, hm⟩ := row_of_mem_ids h (hlocks.modules w hw)
    cases hfree : m.base.holdingTaskId with
    | none =>
      have hidle : ∀ v ∈ s.workers[k]?, ∀ mv ∈ s.rows v.module, mv.base.holdingTaskId = none := by
        intro v hv mv hmv
        cases hk.symm.trans hv
        cases hm.symm.trans hmv
        exact hfree
      apply canAdvance_of_workerStep (e := .acquire k 0 0) rfl nofun rfl hk hm ⟨hidle, trivial⟩
      simp [workerStep, hloaded]
    | some j =>
      -- the lock's holder is a worker of the run
      have hlock : s.lockAt w.module = some (m.base.id, some j, m.base.lockFenceToken) := by
        rw [Chain.lockAt, hm, Option.map_some, lockOf, hfree]
      obtain ⟨v, l, hv, -, hvp, hvl⟩ := hlocks.holder _ _ _ _ hlock
      have hbegun : v.phase ≠ .loaded := by
        intro hvloaded
        rw [hlocks.early v (mem_of_getElem? hv) (Or.inr hvloaded)] at hvl
        cases hvl
      exact canAdvance_of_begun hS h hlocks hv hvp hbegun
  · exact canAdvance_of_begun hS h hlocks hk hp hloaded

/-! ### Destroying a project -/

def graphModules (S : Teardown) (enabled : Nat → Bool) (names : Nat → Option String) :
    List Graph.GraphModule :=
  S.modules.map fun m ↦ ⟨m.id, m.dependencies, enabled m.id, names m.id⟩

/-- `destroy_project_parallel` with `create_tasks`;
`backend/services/parallel_execution_service.py:274`. -/
def destroyProjectParallel (S : Teardown) (enabled : Nat → Bool) (names : Nat → Option String)
    (force : Bool) (rows : Nat → Option ModuleRow) : Except Graph.PlanError Chain :=
  match (Graph.getExecutionPlan (graphModules S enabled names)).dispatches "destroy" with
  | .ok true => .ok (dispatchFirstDestroyWave S force (Chain.start S rows))
  | .ok false => .ok (Chain.start S rows)
  | .error e => .error e

theorem destroyProjectParallel_of_enabled {enabled : Nat → Bool}
    (henabled : ∃ x ∈ S.ids, enabled x = true) (names : Nat → Option String) (force : Bool)
    (rows : Nat → Option ModuleRow) :
    destroyProjectParallel S enabled names force rows =
      .ok (dispatchFirstDestroyWave S force (Chain.start S rows)) := by
  have hids : Graph.moduleIds (graphModules S enabled names) = S.ids := by
    simp [Graph.moduleIds, graphModules, Teardown.ids, Function.comp_def]
  have hnodup : (Graph.moduleIds (graphModules S enabled names)).Nodup := hids ▸ S.ids_nodup
  have hacyclic : Graph.Acyclic (graphModules S enabled names) := by
    obtain ⟨rank, hrank⟩ := S.acyclic
    refine ⟨rank, fun m hm d hd _ ↦ ?_⟩
    obtain ⟨m₀, hm₀, rfl⟩ := mem_map.mp hm
    exact hrank m₀ hm₀ d hd
  have hany : (graphModules S enabled names).any Graph.GraphModule.enabled = true := by
    obtain ⟨x, hx, hen⟩ := henabled
    obtain ⟨m, hm, rfl⟩ := mem_map.mp hx
    exact any_eq_true.mpr ⟨_, mem_map_of_mem hm, hen⟩
  rw [destroyProjectParallel, Graph.dispatches_getExecutionPlan hnodup (hacyclic.filter _),
    if_pos hany]

/-- A cloud module on an in-cluster module, and another cloud module. -/
def retriedInCluster : Teardown :=
  ⟨.project, [⟨0, [], some ⟨some .kubernetes, none⟩⟩, ⟨1, [0], none⟩, ⟨2, [], none⟩], by decide,
    ⟨fun x ↦ x % 2, by decide⟩⟩

def retriedRows : Nat → Option ModuleRow := fun x ↦
  if x < 3 then
    some ⟨if x = 0 then destroyFailed else applied, ⟨x, none, none, 0, none, fun _ ↦ .null⟩⟩
  else none

private theorem retriedRows_present (x : Nat) :
    (retriedRows x).isSome = true ↔ x ∈ retriedInCluster.ids := by
  have hids : retriedInCluster.ids = [0, 1, 2] := rfl
  rw [hids, retriedRows]
  split
  · next h => simpa using (by omega : x = 0 ∨ x = 1 ∨ x = 2)
  · next h => simpa using (by omega : x ≠ 0 ∧ x ≠ 1 ∧ x ≠ 2)

private theorem retriedRows_idle (x : Nat) (m : ModuleRow) (hm : retriedRows x = some m) :
    betweenRuns m.status = true ∧ m.base.holdingTaskId = none := by
  unfold retriedRows at hm
  rw [Option.ite_none_right_eq_some] at hm
  cases hm.2
  refine ⟨?_, rfl⟩
  split <;> rfl

/-- Both cloud modules are destroyed; the terminal detection of one comes before the trigger of
the other. -/
def detectedEarly : List ChainEvent :=
  [.load 0, .acquire 0 30 0, .write 0 .success destroying [("outputs", .null)],
    .load 1, .acquire 1 30 0, .write 1 .success destroying [("outputs", .null)],
    .progress 1, .test 1, .detect 1, .writeOff 1,
    .progress 0, .test 0, .test 0, .detect 0, .writeOff 0]

end BnkForge.Destroy
