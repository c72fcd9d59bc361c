import BnkForge.Destroy.Barrier
import BnkForge.Lib.Rank

/-!
# Wake-ups in the destroy chain of a project

No scheduler drives a destroy run: a module is dispatched by the first wave or by the trigger
of the dependent that finishes last (`backend/tasks/_tofu_helpers.py:364–582`). In a run all
of whose destroys succeed, a module that waits has a dependent with infrastructure or a
worker whose trigger has not looked at it yet (`WakeInv`). Terminal detection breaks this
when it reconciles a `destroy_failed` in-cluster module that waits.
-/

namespace BnkForge.Destroy

open ModuleStatus Lock BnkForge.Module Transition List

/-! ### Runs without failures -/

variable (S : Teardown)

/-- Every destroy succeeds: a task takes an idle lock, its engine succeeds and its final write
(of the status and other columns) passes the fence; no task outside the run interferes. -/
def DestroysSucceed (s : Chain) : ChainEvent → Prop
  | .recover _ _ | .load _ | .skip _ | .refresh _ _ | .progress _ | .test _ | .commitDispatch _
  | .abort _ | .detect _ | .writeOff _ => True
  | .acquire k _ _ =>
    ∀ w ∈ s.workers[k]?, ∀ m ∈ s.rows w.module, m.base.holdingTaskId = none
  | .write k x seen extra =>
    x = .success ∧ extra ≠ [] ∧ isLegalTransition seen destroyed = true ∧
      ∀ w ∈ s.workers[k]?, ∀ l ∈ w.lock, ∀ m ∈ s.rows w.module, m.fence = l.fenceToken
  | _ => False

/-- No trigger raises, and terminal detection finds no module to reconcile. -/
def HooksBehave (s : Chain) : ChainEvent → Prop
  | .abort _ => False
  | .detect _ => inClusterFailures S s = []
  | _ => True

/-- The guard of the runs that are complete. -/
def Smooth (s : Chain) (e : ChainEvent) : Prop := DestroysSucceed s e ∧ HooksBehave S s e

instance (s : Chain) (e : ChainEvent) : Decidable (DestroysSucceed s e) :=
  match e with
  | .recover _ _ | .load _ | .skip _ | .refresh _ _ | .progress _ | .test _ | .commitDispatch _
  | .abort _ | .detect _ | .writeOff _ => .isTrue trivial
  | .acquire k _ _ => inferInstanceAs (Decidable
      (∀ w ∈ s.workers[k]?, ∀ m ∈ s.rows w.module, m.base.holdingTaskId = none))
  | .write k x seen extra =>
    match extra with
    | [] => .isFalse fun h ↦ h.2.1 rfl
    | f :: fs => decidable_of_iff (x = .success ∧ isLegalTransition seen destroyed = true ∧
        ∀ w ∈ s.workers[k]?, ∀ l ∈ w.lock, ∀ m ∈ s.rows w.module, m.fence = l.fenceToken)
        ⟨fun h ↦ ⟨h.1, List.cons_ne_nil f fs, h.2⟩, fun h ↦ ⟨h.1, h.2.2⟩⟩
  | .firstWave _ | .outside _ _ | .raise _ _ | .handle _ _ | .vanish _ => .isFalse id

instance (s : Chain) (e : ChainEvent) : Decidable (HooksBehave S s e) :=
  match e with
  | .abort _ => .isFalse id
  | .detect _ => inferInstanceAs (Decidable (_ = _))
  | .firstWave _ | .outside _ _ | .recover _ _ | .load _ | .skip _ | .acquire _ _ _
  | .refresh _ _ | .write _ _ _ _ | .raise _ _ | .handle _ _ | .progress _ | .test _
  | .commitDispatch _ | .writeOff _ | .vanish _ => .isTrue trivial

instance (s : Chain) (e : ChainEvent) : Decidable (Smooth S s e) := inferInstanceAs (Decidable (_ ∧ _))

variable {S} {s t : Chain} {k : Nat} {w w' : DestroyWorker}

def lockOf (m : ModuleRow) : Nat × Option Nat × Nat :=
  (m.base.id, m.base.holdingTaskId, m.base.lockFenceToken)

/-- What a smooth step does. -/
inductive Advances (S : Teardown) (s : Chain) : ChainEvent → Chain → Prop
  | load {k : Nat} {w : DestroyWorker} (hk : s.workers[k]? = some w) (hp : w.phase = .queued) :
      Advances S s (.load k) (s.setWorker k { w with task := .inProgress, phase := .loaded })
  | acquire {k reclaim : Nat} {now : Int} {w : DestroyWorker} {m : ModuleRow}
      {base : Row ColumnValue} {l : EntityLock} (hk : s.workers[k]? = some w)
      (hp : w.phase = .loaded) (hm : s.rows w.module = some m)
      (hfree : m.base.holdingTaskId = none)
      (hl : tryAcquire .projectModules reclaim m.base.id k now m.base = (base, some l)) :
      Advances S s (.acquire k reclaim now)
        ((s.onRow w.module fun m ↦ { m with base := base }).setWorker k
          { w with lock := some l, phase := .working })
  | refresh {k : Nat} {now : Int} {w : DestroyWorker} {l : EntityLock}
      (hk : s.workers[k]? = some w) (hl : w.lock = some l) :
      Advances S s (.refresh k now)
        (s.onRow w.module (onLockColumns fun r ↦ (Lock.refresh l now r).1))
  | finish {k : Nat} {e : ChainEvent} {w : DestroyWorker} {f : ModuleRow → ModuleRow}
      (he : e.actor = some k) (hr : ∀ now, e ≠ .refresh k now) (hk : s.workers[k]? = some w)
      (hlive : w.live = true) (hp : w.phase ≠ .queued)
      (hf : ∀ m, s.rows w.module = some m → (f m).status = destroyed ∧ lockOf (f m) = lockOf m) :
      Advances S s e
        ((s.onRow w.module f).setWorker k { w with task := .completed, phase := .wrote })
  | progress {k : Nat} {w : DestroyWorker} (hk : s.workers[k]? = some w)
      (hp : w.phase = .wrote ∨ w.phase = .marked) :
      Advances S s (.progress k)
        (s.setWorker k { w with phase := .trigger (S.dependencies w.module) })
  | looked {k : Nat} {w : DestroyWorker} (hk : s.workers[k]? = some w)
      (hp : w.phase = .trigger []) :
      Advances S s (.test k) (s.setWorker k { w with phase := .detect })
  | decide {k d : Nat} {w : DestroyWorker} {seen : ModuleStatus} {deps : List Nat}
      (hk : s.workers[k]? = some w) (hp : w.phase = .trigger (d :: deps))
      (ht : triggerTest S s d = some seen) :
      Advances S s (.test k) (s.setWorker k { w with phase := .decided d seen deps })
  | pass {k d : Nat} {w : DestroyWorker} {deps : List Nat} (hk : s.workers[k]? = some w)
      (hp : w.phase = .trigger (d :: deps)) (ht : triggerTest S s d = none) :
      Advances S s (.test k) (s.setWorker k { w with phase := .trigger deps })
  | dispatch {k d : Nat} {w : DestroyWorker} {seen : ModuleStatus} {deps : List Nat}
      (hk : s.workers[k]? = some w) (hp : w.phase = .decided d seen deps)
      (hd : (s.rows d).isSome = true) :
      Advances S s (.commitDispatch k)
        ((s.setWorker k { w with phase := .trigger deps }).dispatch seen d)
  | detect {k : Nat} {w : DestroyWorker} (hk : s.workers[k]? = some w) (hp : w.phase = .detect) :
      Advances S s (.detect k) (s.setWorker k { w with phase := .closing [] })
  | close {k : Nat} {w : DestroyWorker} {ids : List Nat} (hk : s.workers[k]? = some w)
      (hp : w.phase = .closing ids) :
      Advances S s (.writeOff k)
        (leaveTo (s.mapStatus fun x status ↦ if ids.contains x then destroyed else status) k w
          .ended)

private theorem advances_finalWrite {m : ModuleRow} {l : EntityLock} {seen : ModuleStatus}
    {extra : List (String × ColumnValue)} (hk : s.workers[k]? = some w) (hp : w.phase = .working)
    (hm : s.rows w.module = some m) (hextra : extra ≠ [])
    (hlegal : isLegalTransition seen destroyed = true) (hfence : m.fence = l.fenceToken) :
    Advances S s (.write k .success seen extra)
      (finalWrite s k w m l .success seen destroyed extra) := by
  have hwrite := transitionModuleStatus_applied hlegal hfence
    (fun h : seen = destroyed ∧ extra = [] ↦ hextra h.2)
  have heq : finalWrite s k w m l .success seen destroyed extra =
      (s.onRow w.module fun _ ↦
        ⟨destroyed, { m.base with cols := setColumns extra m.base.cols }⟩).setWorker k
          { w with task := .completed, phase := .wrote } := by
    simp only [finalWrite, hwrite]
    rfl
  rw [heq]
  refine .finish rfl nofun hk (by simp [DestroyWorker.live, hp]) (by simp [hp]) ?_
  intro m₀ hm₀
  cases hm.symm.trans hm₀
  exact ⟨rfl, rfl⟩

private theorem advances_of_workerMoves (hS : S.scope = .project) {m : ModuleRow}
    {e : ChainEvent} (hk : s.workers[k]? = some w) (hm : s.rows w.module = some m)
    (hok : Smooth S s e) (hst : WorkerMoves S s k w m e t) : Advances S s e t := by
  cases hst with
  | load hp => exact .load hk hp
  | skip hp _ =>
    exact .finish rfl nofun hk (by simp [DestroyWorker.live, hp]) (by simp [hp]) fun _ _ ↦ ⟨rfl, rfl⟩
  | acquire reclaim now base l hp hl => exact .acquire hk hp hm (hok.1 w hk m hm) hl
  | timeOut reclaim now base hp hl =>
    have hfree := hok.1 w hk m hm
    have hsome := (tryAcquire_isSome_iff .projectModules reclaim k now m.base).mpr (Or.inl hfree)
    rw [hl] at hsome
    cases hsome
  | refresh now l hl => exact .refresh hk hl
  | write x seen extra l target hp hl htarget =>
    obtain ⟨rfl, hextra, hlegal, hfence⟩ := hok.1
    cases htarget
    exact advances_finalWrite hk hp hm hextra hlegal (hfence w hk l hl m hm)
  | progress hp =>
    rw [if_neg (by rw [hS]; decide)]
    exact .progress hk hp
  | looked hp => exact .looked hk hp
  | decide d seen deps hp htest => exact .decide hk hp htest
  | pass d deps hp htest => exact .pass hk hp htest
  | dispatch d seen deps hp hrow => exact .dispatch hk hp hrow
  | detectStack hstack _ => cases hS.symm.trans hstack
  | detectProject _ hp =>
    have hnone : inClusterFailures S s = [] := hok.2
    rw [hnone]
    exact .detect hk hp
  | writeOff ids hp => exact .close hk hp
  | abort _ => exact absurd hok.2 id
  | raise _ _ _ | handle _ _ _ => exact absurd hok.1 id

theorem advances_of_chainStep (hS : S.scope = .project) {e : ChainEvent} (hok : Smooth S s e)
    (hrec : ∀ x last, e ≠ .recover x last) (hst : chainStep S s e = some t) :
    Advances S s e t := by
  have hactor : ∃ k, e.actor = some k := by
    cases e with
    | recover x last => exact absurd rfl (hrec x last)
    | firstWave _ | outside _ _ => exact absurd hok.1 id
    | _ => exact ⟨_, rfl⟩
  obtain ⟨k, he⟩ := hactor
  obtain ⟨w, hk, ⟨m, hm, hst⟩ | ⟨rfl, -, -⟩⟩ := workerMoves_of_chainStep he hst
  · exact advances_of_workerMoves hS hk hm hok hst
  · exact absurd hok.1 id

/-! ### Waiting modules -/

/-- The module has infrastructure and is not being destroyed. -/
def Waits (s : Chain) (x : Nat) : Prop :=
  ∃ status, s.statusOf x = some status ∧ status.noInfra = false ∧ status ≠ destroying

/-- Some dependent of the module has infrastructure. -/
def HeldUp (S : Teardown) (s : Chain) (x : Nat) : Prop :=
  ∃ y ∈ S.modules, x ∈ y.dependencies ∧
    ∃ status, s.statusOf y.id = some status ∧ status.noInfra = false

def ahead (S : Teardown) (w : DestroyWorker) (x : Nat) : Prop :=
  match w.phase with
  | .wrote => x ∈ S.dependencies w.module
  | .trigger deps => x ∈ deps
  | .decided d _ deps => x = d ∨ x ∈ deps
  | _ => False

def DestroyWorker.smooth (w : DestroyWorker) : Bool :=
  match w.phase with
  | .raised _ | .marked => false
  | .decided _ seen _ => seen != destroying
  | .closing ids => ids == []
  | _ => true

/-- How statuses and workers go together in smooth runs; `start` are the statuses when the
run begins. -/
structure Orderly (S : Teardown) (start : Nat → Option ModuleStatus) (s : Chain) : Prop where
  present : ∀ x, (s.statusOf x).isSome = true ↔ x ∈ S.ids
  calm : ∀ x status, s.statusOf x = some status → status.transitional = true →
    status = destroying
  busy : ∀ x, s.statusOf x = some destroying → ∃ w ∈ s.workers, w.module = x ∧ w.live = true
  live : ∀ w ∈ s.workers, w.live = true →
    s.statusOf w.module = some destroying ∨ s.statusOf w.module = some destroyed
  active : ∀ w ∈ s.workers, w.task.active = w.live
  smooth : ∀ w ∈ s.workers, w.smooth = true
  untouched : ∀ x, (∀ w ∈ s.workers, w.module ≠ x) → s.statusOf x = start x

/-- The invariant of smooth runs: whatever waits is held up or will be looked at. -/
structure WakeInv (S : Teardown) (start : Nat → Option ModuleStatus) (s : Chain) : Prop
    extends Orderly S start s where
  waiting : ∀ x, Waits s x → HeldUp S s x ∨ ∃ w ∈ s.workers, ahead S w x

variable {start : Nat → Option ModuleStatus}

private theorem Waits.congr {x : Nat} (h : t.statusOf x = s.statusOf x) (hw : Waits t x) :
    Waits s x := by
  obtain ⟨status, hst, hrest⟩ := hw
  exact ⟨status, h ▸ hst, hrest⟩

private theorem HeldUp.congr {x : Nat} (h : HeldUp S s x) (hst : t.statusOf = s.statusOf) :
    HeldUp S t x := by
  obtain ⟨y, hy, hx, status, hs, hno⟩ := h
  exact ⟨y, hy, hx, status, by rw [hst]; exact hs, hno⟩

private theorem mem_setWorker (hk : s.workers[k]? = some w)
    (hws : t.workers = s.workers.set k w') :
    w' ∈ t.workers ∧ ∀ v ∈ s.workers, v ∈ t.workers ∨ v = w := by
  obtain ⟨hlt, -⟩ := List.getElem?_eq_some_iff.mp hk
  rw [hws]
  refine ⟨mem_set hlt w', fun v hv ↦ ?_⟩
  obtain ⟨i, hi⟩ := getElem?_of_mem hv
  by_cases hik : k = i
  · subst hik
    exact Or.inr (Option.some.inj (hi.symm.trans hk))
  · exact Or.inl (mem_of_getElem? ((getElem?_set_ne hik).trans hi))

private theorem Orderly.move (h : Orderly S start s) (hk : s.workers[k]? = some w)
    (hws : t.workers = s.workers.set k w') (hst : t.statusOf = s.statusOf)
    (hm : w'.module = w.module) (hlive : w'.live = w.live)
    (hactive : w'.task.active = w'.live) (hsmooth : w'.smooth = true) :
    Orderly S start t := by
  have hw : w ∈ s.workers := mem_of_getElem? hk
  obtain ⟨hw', hold⟩ := mem_setWorker hk hws
  have hnew : ∀ v ∈ t.workers, v ∈ s.workers ∨ v = w' :=
    fun v hv ↦ mem_or_eq_of_mem_set (hws ▸ hv)
  constructor
  · rw [hst]
    exact h.present
  · rw [hst]
    exact h.calm
  · intro x hx
    rw [hst] at hx
    obtain ⟨v, hv, hvx, hvlive⟩ := h.busy x hx
    rcases hold v hv with hv | rfl
    · exact ⟨v, hv, hvx, hvlive⟩
    · exact ⟨w', hw', hm.trans hvx, hlive.trans hvlive⟩
  · intro v hv hvlive
    rw [hst]
    rcases hnew v hv with hv | rfl
    · exact h.live v hv hvlive
    · rw [hm]
      exact h.live w hw (hlive ▸ hvlive)
  · intro v hv
    rcases hnew v hv with hv | rfl
    · exact h.active v hv
    · exact hactive
  · intro v hv
    rcases hnew v hv with hv | rfl
    · exact h.smooth v hv
    · exact hsmooth
  · intro x hx
    rw [hst]
    apply h.untouched x
    intro v hv
    rcases hold v hv with hv | rfl
    · exact hx v hv
    · exact hm ▸ hx w' hw'

private theorem WakeInv.move (h : WakeInv S start s) (hk : s.workers[k]? = some w)
    (hws : t.workers = s.workers.set k w') (hst : t.statusOf = s.statusOf)
    (hm : w'.module = w.module) (hlive : w'.live = w.live)
    (hactive : w'.task.active = w'.live) (hsmooth : w'.smooth = true)
    (hahead : ∀ x, Waits s x → ahead S w x → HeldUp S s x ∨ ahead S w' x) :
    WakeInv S start t := by
  refine ⟨h.toOrderly.move hk hws hst hm hlive hactive hsmooth, ?_⟩
  obtain ⟨hw', hold⟩ := mem_setWorker hk hws
  intro x hx
  have hxs : Waits s x := hx.congr (by rw [hst])
  rcases h.waiting x hxs with hup | ⟨v, hv, hva⟩
  · exact Or.inl (hup.congr hst)
  · rcases hold v hv with hv | rfl
    · exact Or.inr ⟨v, hv, hva⟩
    · rcases hahead x hxs hva with hup | ha
      · exact Or.inl (hup.congr hst)
      · exact Or.inr ⟨w', hw', ha⟩

/-- A worker commits `destroyed` and comes to its hooks. -/
private theorem Orderly.finish (h : Orderly S start s) (hk : s.workers[k]? = some w)
    (hws : t.workers = s.workers.set k w') (hself : t.statusOf w.module = some destroyed)
    (hother : ∀ x, x ≠ w.module → t.statusOf x = s.statusOf x) (hlive : w.live = true)
    (hm : w'.module = w.module) (hp : w'.phase = .wrote) (htask : w'.task.active = false) :
    Orderly S start t := by
  have hw : w ∈ s.workers := mem_of_getElem? hk
  obtain ⟨hw', hold⟩ := mem_setWorker hk hws
  have hnew : ∀ v ∈ t.workers, v ∈ s.workers ∨ v = w' :=
    fun v hv ↦ mem_or_eq_of_mem_set (hws ▸ hv)
  have hdead : w'.live = false := by simp [DestroyWorker.live, hp]
  have hpresent : w.module ∈ S.ids := by
    apply (h.present w.module).mp
    rcases h.live w hw hlive with hst | hst
    · rw [hst]
      rfl
    · rw [hst]
      rfl
  constructor
  · intro x
    by_cases hx : x = w.module
    · subst hx
      rw [hself]
      exact iff_of_true rfl hpresent
    · rw [hother x hx]
      exact h.present x
  · intro x status hx htrans
    by_cases hxw : x = w.module
    · rw [hxw, hself] at hx
      cases hx
      cases htrans
    · exact h.calm x status ((hother x hxw).symm.trans hx) htrans
  · intro x hx
    have hne : x ≠ w.module := by
      rintro rfl
      rw [hself] at hx
      cases hx
    rw [hother x hne] at hx
    obtain ⟨v, hv, hvx, hvlive⟩ := h.busy x hx
    rcases hold v hv with hv | rfl
    · exact ⟨v, hv, hvx, hvlive⟩
    · exact absurd hvx.symm hne
  · intro v hv hvlive
    rcases hnew v hv with hv | rfl
    · by_cases hvm : v.module = w.module
      · rw [hvm]
        exact Or.inr hself
      · rw [hother v.module hvm]
        exact h.live v hv hvlive
    · rw [hdead] at hvlive
      cases hvlive
  · intro v hv
    rcases hnew v hv with hv | rfl
    · exact h.active v hv
    · rw [htask, hdead]
  · intro v hv
    rcases hnew v hv with hv | rfl
    · exact h.smooth v hv
    · simp [DestroyWorker.smooth, hp]
  · intro x hx
    have hne : x ≠ w.module := fun heq ↦ hx w' hw' (hm.trans heq.symm)
    rw [hother x hne]
    apply h.untouched x
    intro v hv
    rcases hold v hv with hv | rfl
    · exact hx v hv
    · exact Ne.symm hne

private theorem not_ahead_of_live (hlive : w.live = true) (x : Nat) : ¬ ahead S w x := by
  revert hlive
  unfold ahead DestroyWorker.live
  split <;> simp_all

private theorem WakeInv.finish (h : WakeInv S start s) (hk : s.workers[k]? = some w)
    (hws : t.workers = s.workers.set k w') (hself : t.statusOf w.module = some destroyed)
    (hother : ∀ x, x ≠ w.module → t.statusOf x = s.statusOf x) (hlive : w.live = true)
    (hm : w'.module = w.module) (hp : w'.phase = .wrote) (htask : w'.task.active = false) :
    WakeInv S start t := by
  refine ⟨h.toOrderly.finish hk hws hself hother hlive hm hp htask, ?_⟩
  obtain ⟨hw', hold⟩ := mem_setWorker hk hws
  intro x hx
  have hne : x ≠ w.module := by
    rintro rfl
    obtain ⟨status, hst, hno, -⟩ := hx
    rw [hself] at hst
    cases hst
    cases hno
  have hxs : Waits s x := hx.congr (hother x hne)
  rcases h.waiting x hxs with ⟨y, hy, hxy, status, hst, hno⟩ | ⟨v, hv, hva⟩
  · by_cases hyw : y.id = w.module
    · -- the last dependent with infrastructure is this one, and its trigger is still to come
      right
      refine ⟨w', hw', ?_⟩
      rw [ahead, hp, hm, ← hyw, Teardown.dependencies_of_mem hy]
      exact hxy
    · exact Or.inl ⟨y, hy, hxy, status, (hother y.id hyw).trans hst, hno⟩
  · rcases hold v hv with hv | rfl
    · exact Or.inr ⟨v, hv, hva⟩
    · exact absurd hva (not_ahead_of_live hlive x)

private theorem Orderly.dispatch (h : Orderly S start s) {d : Nat} {status seen : ModuleStatus}
    (hd : s.statusOf d = some status) (hseen : seen ≠ destroying) :
    Orderly S start (s.dispatch seen d) := by
  have hself : (s.dispatch seen d).statusOf d = some destroying := by
    rw [statusOf_dispatch, hd, Option.map_some, if_neg hseen]
  have hother : ∀ x, x ≠ d → (s.dispatch seen d).statusOf x = s.statusOf x :=
    fun x hx ↦ statusOf_dispatch_of_ne s hx seen
  have hnew : ∀ v ∈ (s.dispatch seen d).workers, v ∈ s.workers ∨ v = ⟨d, .queued, none, .queued⟩ := by
    intro v hv
    rwa [workers_dispatch, mem_append, mem_singleton] at hv
  have hold : ∀ v ∈ s.workers, v ∈ (s.dispatch seen d).workers := by
    intro v hv
    rw [workers_dispatch]
    exact mem_append_left _ hv
  have hqueued : (⟨d, .queued, none, .queued⟩ : DestroyWorker) ∈ (s.dispatch seen d).workers := by
    rw [workers_dispatch]
    exact mem_append_right _ (mem_singleton_self _)
  constructor
  · intro x
    rw [← h.present x]
    by_cases hx : x = d
    · subst hx
      rw [hself, hd]
      exact Iff.rfl
    · rw [hother x hx]
  · intro x st hx htrans
    by_cases hxd : x = d
    · rw [hxd, hself] at hx
      exact (Option.some.inj hx).symm
    · exact h.calm x st ((hother x hxd).symm.trans hx) htrans
  · intro x hx
    by_cases hxd : x = d
    · exact ⟨_, hqueued, hxd.symm, rfl⟩
    · rw [hother x hxd] at hx
      obtain ⟨v, hv, hrest⟩ := h.busy x hx
      exact ⟨v, hold v hv, hrest⟩
  · intro v hv hvlive
    by_cases hvd : v.module = d
    · rw [hvd]
      exact Or.inl hself
    · rw [hother v.module hvd]
      rcases hnew v hv with hv | rfl
      · exact h.live v hv hvlive
      · exact absurd rfl hvd
  · intro v hv
    rcases hnew v hv with hv | rfl
    · exact h.active v hv
    · rfl
  · intro v hv
    rcases hnew v hv with hv | rfl
    · exact h.smooth v hv
    · rfl
  · intro x hx
    have hxd : x ≠ d := fun heq ↦ hx _ hqueued heq.symm
    rw [hother x hxd]
    exact h.untouched x fun v hv ↦ hx v (hold v hv)

private theorem HeldUp.dispatch {x d : Nat} {status seen : ModuleStatus} (h : HeldUp S s x)
    (hd : s.statusOf d = some status) (hseen : seen ≠ destroying) :
    HeldUp S (s.dispatch seen d) x := by
  obtain ⟨y, hy, hxy, st, hst, hno⟩ := h
  by_cases hyd : y.id = d
  · refine ⟨y, hy, hxy, destroying, ?_, rfl⟩
    rw [hyd, statusOf_dispatch, hd, Option.map_some, if_neg hseen]
  · exact ⟨y, hy, hxy, st, (statusOf_dispatch_of_ne s hyd seen).trans hst, hno⟩

private theorem not_waits_dispatch {d : Nat} {status seen : ModuleStatus}
    (hd : s.statusOf d = some status) (hseen : seen ≠ destroying) :
    ¬ Waits (s.dispatch seen d) d := by
  rintro ⟨st, hst, -, hne⟩
  rw [statusOf_dispatch, hd, Option.map_some, if_neg hseen] at hst
  exact hne (Option.some.inj hst).symm

private theorem WakeInv.dispatch (h : WakeInv S start s) {d : Nat} {status seen : ModuleStatus}
    (hd : s.statusOf d = some status) (hseen : seen ≠ destroying) :
    WakeInv S start (s.dispatch seen d) := by
  refine ⟨h.toOrderly.dispatch hd hseen, ?_⟩
  intro x hx
  have hxd : x ≠ d := by
    rintro rfl
    exact not_waits_dispatch hd hseen hx
  have hxs : Waits s x := hx.congr (statusOf_dispatch_of_ne s hxd seen)
  rcases h.waiting x hxs with hup | ⟨v, hv, hva⟩
  · exact Or.inl (hup.dispatch hd hseen)
  · right
    refine ⟨v, ?_, hva⟩
    rw [workers_dispatch]
    exact mem_append_left _ hv

private theorem Orderly.idle_of_waits (h : Orderly S start s) {x : Nat} (hx : Waits s x) :
    s.activeDestroy x = false := by
  obtain ⟨status, hst, hno, hne⟩ := hx
  by_contra hact
  rw [Bool.not_eq_false] at hact
  obtain ⟨v, hv, hvx⟩ := any_eq_true.mp hact
  rw [Bool.and_eq_true, beq_iff_eq] at hvx
  have hlive := h.live v hv ((h.active v hv).symm.trans hvx.2)
  rw [hvx.1, hst] at hlive
  rcases hlive with heq | heq
  · exact hne (Option.some.inj heq)
  · cases heq
    cases hno

private theorem WakeInv.heldUp_of_triggerTest (h : WakeInv S start s) {d : Nat}
    (hd : Waits s d) (ht : triggerTest S s d = none) : HeldUp S s d := by
  obtain ⟨status, hst, hno, hne⟩ := hd
  have hidle : s.activeDestroy d = false := h.idle_of_waits ⟨status, hst, hno, hne⟩
  by_contra hup
  have hall : (dependents S s d).all (fun x ↦ (s.statusOf x.id).all (clears S x)) = true := by
    apply all_eq_true.mpr
    intro y hy
    rw [dependents, mem_filter, Bool.and_eq_true, contains_iff_mem] at hy
    obtain ⟨hy, hdy, -⟩ := hy
    cases hsy : s.statusOf y.id with
    | none => rfl
    | some sy =>
      have hnoy : sy.noInfra = true := by
        by_contra hneg
        exact hup ⟨y, hy, hdy, sy, hsy, Bool.eq_false_iff.mpr hneg⟩
      simp [clears, hnoy]
  rw [triggerTest, hst] at ht
  simp [hno, hall, hidle] at ht

private theorem Orderly.activeDestroy_of_destroying (h : Orderly S start s) {x : Nat}
    (hx : s.statusOf x = some destroying) : s.activeDestroy x = true := by
  obtain ⟨v, hv, hvx, hvlive⟩ := h.busy x hx
  apply any_eq_true.mpr
  exact ⟨v, hv, by rw [h.active v hv, hvlive, hvx, beq_self_eq_true]; rfl⟩

private theorem Orderly.seen_of_triggerTest (h : Orderly S start s) {d : Nat}
    {seen : ModuleStatus} (ht : triggerTest S s d = some seen) : seen ≠ destroying := by
  rintro rfl
  unfold triggerTest at ht
  split at ht
  · next status hst =>
    rw [Option.ite_none_right_eq_some, Bool.and_eq_true, Bool.not_eq_true'] at ht
    obtain ⟨⟨-, hidle⟩, hseen⟩ := ht
    cases hseen
    rw [h.activeDestroy_of_destroying hst] at hidle
    cases hidle
  · cases ht

private theorem Orderly.inactive (h : Orderly S start s) (hw : w ∈ s.workers)
    (hdead : w.live = false) : w.task.active = false := (h.active w hw).trans hdead

private theorem WakeInv.close (h : WakeInv S start s) (hk : s.workers[k]? = some w)
    {ids : List Nat} (hp : w.phase = .closing ids) :
    WakeInv S start
      (Destroy.leaveTo (s.mapStatus fun x status ↦ if ids.contains x then destroyed else status) k w
        .ended) := by
  have hw : w ∈ s.workers := mem_of_getElem? hk
  have hids : ids = [] := by
    have hsmooth := h.smooth w hw
    simpa [DestroyWorker.smooth, hp] using hsmooth
  subst hids
  have hdead : w.live = false := by simp [DestroyWorker.live, hp]
  have htask : w.task.active = false := h.inactive hw hdead
  refine h.move hk rfl ?_ rfl hdead.symm htask rfl ?_
  · rw [statusOf_leaveTo]
    funext x
    rw [statusOf_mapStatus]
    exact Option.map_id'
  · intro x _ ha
    simp [ahead, hp] at ha

private theorem WakeInv.commitDispatch (h : WakeInv S start s) (hk : s.workers[k]? = some w)
    {d : Nat} {seen : ModuleStatus} {deps : List Nat} (hp : w.phase = .decided d seen deps)
    (hd : (s.rows d).isSome = true) :
    WakeInv S start ((s.setWorker k { w with phase := .trigger deps }).dispatch seen d) := by
  have hw : w ∈ s.workers := mem_of_getElem? hk
  obtain ⟨hlt, -⟩ := List.getElem?_eq_some_iff.mp hk
  have hseen : seen ≠ destroying := by
    have hsmooth := h.smooth w hw
    simpa [DestroyWorker.smooth, hp] using hsmooth
  obtain ⟨m, hm⟩ := Option.isSome_iff_exists.mp hd
  have hstatus : s.statusOf d = some m.status := by rw [Chain.statusOf, hm, Option.map_some]
  have hdead : w.live = false := by simp [DestroyWorker.live, hp]
  -- the dispatch and the worker's own step commute
  have hk' : (s.dispatch seen d).workers[k]? = some w := by
    rw [workers_dispatch, getElem?_append_left hlt]
    exact hk
  have hws : ((s.setWorker k { w with phase := .trigger deps }).dispatch seen d).workers =
      (s.dispatch seen d).workers.set k { w with phase := .trigger deps } := by
    rw [workers_dispatch, workers_dispatch, set_append_left _ _ hlt]
    rfl
  have htask : w.task.active = false := h.inactive hw hdead
  refine (h.dispatch hstatus hseen).move hk' hws rfl rfl hdead.symm htask rfl ?_
  · intro x hx ha
    rw [ahead, hp] at ha
    rcases ha with rfl | ha
    · exact absurd hx (not_waits_dispatch hstatus hseen)
    · exact Or.inr ha

private theorem Orderly.no_recover (h : Orderly S start s) (x : Nat) (last : Option TaskStatus) :
    chainStep S s (.recover x last) = none := by
  simp only [chainStep]
  apply if_neg
  intro hstale
  rw [Bool.and_eq_true, Bool.not_eq_true'] at hstale
  obtain ⟨htrans, hidle⟩ := hstale
  cases hst : s.statusOf x with
  | none =>
    rw [hst] at htrans
    cases htrans
  | some status =>
    rw [hst, Option.any_some] at htrans
    rw [h.calm x status hst htrans] at hst
    rw [h.activeDestroy_of_destroying hst] at hidle
    cases hidle

theorem Orderly.ne_recover (h : Orderly S start s) {e : ChainEvent}
    (hst : chainStep S s e = some t) : ∀ x last, e ≠ .recover x last := by
  rintro x last rfl
  rw [h.no_recover x last] at hst
  cases hst

theorem wakeInv_step (hS : S.scope = .project) (h : WakeInv S start s) {e : ChainEvent}
    (hok : Smooth S s e) (hst : chainStep S s e = some t) : WakeInv S start t := by
  cases advances_of_chainStep hS hok (h.ne_recover hst) hst with
  | @load k w hk hp =>
    have hlive : w.live = true := by simp [DestroyWorker.live, hp]
    exact h.move hk rfl rfl rfl hlive.symm rfl rfl fun x _ ha ↦
      absurd ha (not_ahead_of_live hlive x)
  | @acquire k _ _ w m base l hk hp hm _ hl =>
    have hlive : w.live = true := by simp [DestroyWorker.live, hp]
    have hactive := h.active w (mem_of_getElem? hk)
    refine h.move hk rfl ?_ rfl hlive.symm (hactive.trans hlive) rfl fun x _ ha ↦
      absurd ha (not_ahead_of_live hlive x)
    exact statusOf_onRow_of_keeps s w.module fun _ ↦ rfl
  | @refresh k now w l hk hl =>
    have hw : w ∈ s.workers := mem_of_getElem? hk
    have hsame : s.workers = s.workers.set k w := by
      obtain ⟨hlt, hget⟩ := List.getElem?_eq_some_iff.mp hk
      rw [← hget, set_getElem_self]
    refine h.move hk hsame ?_ rfl rfl (h.active w hw) (h.smooth w hw) fun x _ ha ↦ Or.inr ha
    exact statusOf_onRow_of_keeps s w.module fun _ ↦ rfl
  | @finish k e w f _ _ hk hlive _ hf =>
    have hw : w ∈ s.workers := mem_of_getElem? hk
    refine h.finish hk rfl ?_ ?_ hlive rfl rfl rfl
    · have hsome : (s.statusOf w.module).isSome = true := by
        rcases h.live w hw hlive with hst | hst
        · rw [hst]
          rfl
        · rw [hst]
          rfl
      rw [Chain.statusOf, Option.isSome_map] at hsome
      obtain ⟨m, hm⟩ := Option.isSome_iff_exists.mp hsome
      rw [statusOf_setWorker, statusOf_onRow_self, hm, Option.map_some, (hf m hm).1]
    · intro x hx
      rw [statusOf_setWorker]
      exact statusOf_onRow_of_ne s hx f
  | @progress k w hk hp =>
    have hw : w ∈ s.workers := mem_of_getElem? hk
    have hwrote : w.phase = .wrote := by
      refine hp.resolve_right fun hmarked ↦ ?_
      have hsmooth := h.smooth w hw
      simp [DestroyWorker.smooth, hmarked] at hsmooth
    have hdead : w.live = false := by simp [DestroyWorker.live, hwrote]
    have htask : w.task.active = false := h.inactive hw hdead
    refine h.move hk rfl rfl rfl hdead.symm htask rfl fun x _ ha ↦ Or.inr ?_
    rwa [ahead, hwrote] at ha
  | @looked k w hk hp =>
    have hdead : w.live = false := by simp [DestroyWorker.live, hp]
    have htask : w.task.active = false := h.inactive (mem_of_getElem? hk) hdead
    refine h.move hk rfl rfl rfl hdead.symm htask rfl fun x _ ha ↦ ?_
    simp [ahead, hp] at ha
  | @decide k d w seen deps hk hp ht =>
    have hdead : w.live = false := by simp [DestroyWorker.live, hp]
    have htask : w.task.active = false := h.inactive (mem_of_getElem? hk) hdead
    refine h.move hk rfl rfl rfl hdead.symm htask ?_ fun x _ ha ↦ Or.inr ?_
    · simpa [DestroyWorker.smooth] using h.seen_of_triggerTest ht
    · rw [ahead, hp] at ha
      exact mem_cons.mp ha
  | @pass k d w deps hk hp ht =>
    have hdead : w.live = false := by simp [DestroyWorker.live, hp]
    have htask : w.task.active = false := h.inactive (mem_of_getElem? hk) hdead
    refine h.move hk rfl rfl rfl hdead.symm htask rfl fun x hx ha ↦ ?_
    rw [ahead, hp] at ha
    rcases mem_cons.mp ha with rfl | ha
    · exact Or.inl (h.heldUp_of_triggerTest hx ht)
    · exact Or.inr ha
  | dispatch hk hp hd => exact h.commitDispatch hk hp hd
  | @detect k w hk hp =>
    have hdead : w.live = false := by simp [DestroyWorker.live, hp]
    have htask : w.task.active = false := h.inactive (mem_of_getElem? hk) hdead
    refine h.move hk rfl rfl rfl hdead.symm htask rfl fun x _ ha ↦ ?_
    simp [ahead, hp] at ha
  | close hk hp => exact h.close hk hp

/-! ### The first wave -/

def betweenRuns : ModuleStatus → Bool
  | applied | applyFailed | destroyFailed => true
  | status => status.noInfra

private theorem orderly_of_no_workers (hws : s.workers = [])
    (hpresent : ∀ x, (s.statusOf x).isSome = true ↔ x ∈ S.ids)
    (hidle : ∀ x status, s.statusOf x = some status → betweenRuns status = true) :
    Orderly S s.statusOf s where
  present := hpresent
  calm x status hx htrans := by
    have hstatus := hidle x status hx
    cases status <;> simp_all [betweenRuns, transitional, noInfra]
  busy x hx := by
    have hstatus := hidle x destroying hx
    cases hstatus
  live w hw := by
    rw [hws] at hw
    cases hw
  active w hw := by
    rw [hws] at hw
    cases hw
  smooth w hw := by
    rw [hws] at hw
    cases hw
  untouched _ _ := rfl

private theorem Orderly.waveDispatch (h : Orderly S start s) (m : DestroyModule) {done : List Nat}
    (hdone : ∀ x ∈ done, Waits s x → HeldUp S s x) :
    Orderly S start (waveDispatch S s m) ∧
      ∀ x ∈ m.id :: done, Waits (Destroy.waveDispatch S s m) x →
        HeldUp S (Destroy.waveDispatch S s m) x := by
  unfold Destroy.waveDispatch
  split
  · next status hst =>
    split
    · next htest =>
      rw [Bool.and_eq_true, Bool.and_eq_true, Bool.not_eq_true', Bool.not_eq_true'] at htest
      obtain ⟨-, hidle⟩ := htest
      have hne : status ≠ destroying := by
        rintro rfl
        rw [h.activeDestroy_of_destroying hst] at hidle
        cases hidle
      refine ⟨h.dispatch hst hne, fun x hx hw ↦ ?_⟩
      have hxm : x ≠ m.id := by
        rintro rfl
        exact not_waits_dispatch hst hne hw
      have hxs : Waits s x := hw.congr (statusOf_dispatch_of_ne s hxm status)
      have hxdone : x ∈ done := (mem_cons.mp hx).resolve_left hxm
      exact (hdone x hxdone hxs).dispatch hst hne
    · next htest =>
      refine ⟨h, fun x hx hw ↦ ?_⟩
      rcases mem_cons.mp hx with rfl | hx
      · have hidle := h.idle_of_waits hw
        obtain ⟨status', hst', hno, -⟩ := hw
        cases hst.symm.trans hst'
        by_contra hup
        apply htest
        simp only [hno, hidle, Bool.not_false, Bool.true_and, Bool.and_true, all_eq_true]
        intro y hy
        rw [dependents, mem_filter, Bool.and_eq_true, contains_iff_mem] at hy
        cases hsy : s.statusOf y.id with
        | none => rfl
        | some sy =>
          by_contra hneg
          exact hup ⟨y, hy.1, hy.2.1, sy, hsy, Bool.eq_false_iff.mpr hneg⟩
      · exact hdone x hx hw
  · next hst =>
    refine ⟨h, fun x hx hw ↦ ?_⟩
    rcases mem_cons.mp hx with rfl | hx
    · obtain ⟨status, hst', -⟩ := hw
      rw [hst] at hst'
      cases hst'
    · exact hdone x hx hw

private theorem Orderly.foldl_waveDispatch (ms : List DestroyModule) {done : List Nat}
    (h : Orderly S start s) (hdone : ∀ x ∈ done, Waits s x → HeldUp S s x) :
    Orderly S start (ms.foldl (Destroy.waveDispatch S) s) ∧
      ∀ x ∈ ms.map DestroyModule.id ++ done, Waits (ms.foldl (Destroy.waveDispatch S) s) x →
        HeldUp S (ms.foldl (Destroy.waveDispatch S) s) x := by
  induction ms generalizing s done with
  | nil => exact ⟨h, hdone⟩
  | cons m ms ih =>
    obtain ⟨hm, hmdone⟩ := h.waveDispatch m hdone
    obtain ⟨hms, hall⟩ := ih hm hmdone
    refine ⟨hms, fun x hx ↦ hall x ?_⟩
    rw [map_cons, cons_append, mem_cons, mem_append] at hx
    rw [mem_append, mem_cons]
    tauto

/-- The statuses that the first wave finds: `force_destroy` has written off the in-cluster
modules. -/
def startStatus (S : Teardown) (force : Bool) (rows : Nat → Option ModuleRow) (x : Nat) :
    Option ModuleStatus :=
  (rows x).map fun m ↦ if force && S.inCluster x && !m.status.noInfra then destroyed else m.status

theorem wakeInv_firstWave (hS : S.scope = .project) (force : Bool)
    {rows : Nat → Option ModuleRow} (hrows : ∀ x, (rows x).isSome = true ↔ x ∈ S.ids)
    (hidle : ∀ x m, rows x = some m → betweenRuns m.status = true) :
    WakeInv S (startStatus S force rows) (dispatchFirstDestroyWave S force (Chain.start S rows)) := by
  unfold dispatchFirstDestroyWave
  generalize hs₀ : (if force && S.scope == .project then forceDestroy S (Chain.start S rows)
    else Chain.start S rows) = s₀
  have hws : s₀.workers = [] := by
    rw [← hs₀]
    split <;> rfl
  have hst : s₀.statusOf = startStatus S force rows := by
    funext x
    rw [← hs₀]
    cases force with
    | false => simp [startStatus, Chain.statusOf, Chain.start]
    | true => simp [startStatus, hS, forceDestroy, Chain.statusOf, Chain.start, Chain.mapStatus,
        Function.comp_def]
  have hbetween : ∀ x status, s₀.statusOf x = some status → betweenRuns status = true := by
    intro x status hx
    rw [hst, startStatus, Option.map_eq_some_iff] at hx
    obtain ⟨m, hm, hstatus⟩ := hx
    split at hstatus
    · cases hstatus
      rfl
    · cases hstatus
      exact hidle x m hm
  have hpresent : ∀ x, (s₀.statusOf x).isSome = true ↔ x ∈ S.ids := by
    intro x
    rw [hst, startStatus, Option.isSome_map]
    exact hrows x
  have horderly := orderly_of_no_workers hws hpresent hbetween
  rw [hst] at horderly
  have hnone : ∀ x ∈ ([] : List Nat), Waits s₀ x → HeldUp S s₀ x := by simp
  obtain ⟨hall, hwaits⟩ := horderly.foldl_waveDispatch S.modules hnone
  refine ⟨hall, fun x hx ↦ Or.inl (hwaits x ?_ hx)⟩
  obtain ⟨status, hx, -⟩ := hx
  rw [append_nil]
  exact (hall.present x).mp (by rw [hx]; rfl)

/-! ### At rest -/

def AtRest (s : Chain) : Prop := ∀ w ∈ s.workers, w.phase = .ended

instance (s : Chain) : Decidable (AtRest s) :=
  inferInstanceAs (Decidable (∀ w ∈ s.workers, w.phase = .ended))

private theorem not_live_of_ended (hp : w.phase = .ended) : w.live = false := by
  simp [DestroyWorker.live, hp]

theorem WakeInv.noInfra_of_idle (h : WakeInv S start s)
    (hbusy : ∀ x, s.statusOf x ≠ some destroying) (hahead : ∀ w ∈ s.workers, ∀ x, ¬ ahead S w x) :
    ∀ x status, s.statusOf x = some status → status.noInfra = true := by
  obtain ⟨rank, hrank⟩ := S.acyclic
  have hnone : ∀ x, ¬ ∃ status, s.statusOf x = some status ∧ status.noInfra = false := by
    apply @Rank.not_of_ascending _ S.ids rank
    · rintro x ⟨status, hx, -⟩
      exact (h.present x).mp (by rw [hx]; rfl)
    · rintro x ⟨status, hx, hno⟩
      have hwaits : Waits s x := ⟨status, hx, hno, fun heq ↦ hbusy x (heq ▸ hx)⟩
      rcases h.waiting x hwaits with ⟨y, hy, hxy, hinfra⟩ | ⟨w, hw, ha⟩
      · exact ⟨y.id, hinfra, hrank y hy x hxy⟩
      · exact absurd ha (hahead w hw x)
  intro x status hx
  by_contra hno
  exact hnone x ⟨status, hx, Bool.eq_false_iff.mpr hno⟩

theorem WakeInv.noInfra_of_atRest (h : WakeInv S start s) (hrest : AtRest s) :
    ∀ x status, s.statusOf x = some status → status.noInfra = true := by
  apply h.noInfra_of_idle
  · intro x hx
    obtain ⟨w, hw, -, hlive⟩ := h.busy x hx
    rw [not_live_of_ended (hrest w hw)] at hlive
    cases hlive
  · intro w hw x ha
    simp [ahead, hrest w hw] at ha

theorem WakeInv.dispatched_of_atRest (h : WakeInv S start s) (hrest : AtRest s) {x : Nat}
    {status : ModuleStatus} (hx : start x = some status) (hno : status.noInfra = false) :
    ∃ w ∈ s.workers, w.module = x := by
  by_contra hnone
  have hst : s.statusOf x = start x :=
    h.untouched x fun w hw hwx ↦ hnone ⟨w, hw, hwx⟩
  have hinfra := h.noInfra_of_atRest hrest x status (hst.trans hx)
  rw [hno] at hinfra
  cases hinfra

end BnkForge.Destroy
