import BnkForge.Destroy.Chain

/-!
# The destroy barrier

A module is to be destroyed only after its dependents. The trigger tests this from the
statuses in the database and commits the dispatch later, and its guard against a second task
for the same module is a test followed by an insert, so two workers that finish together can
dispatch one module twice. The handlers of a worker that does not get the lock, or loses it,
then set `destroy_failed` under the live holder
(`backend/tasks/opentofu_tasks.py:1214–1263`), which clears the barrier of a project run when
the module is in-cluster.
-/

namespace BnkForge.Destroy

open ModuleStatus Lock BnkForge.Module Transition List

/-! ### The barrier -/

/-- The destroy run of the worker's module is not over. -/
def DestroyWorker.live (w : DestroyWorker) : Bool :=
  match w.phase with
  | .queued | .loaded | .working => true
  | _ => false

/-- The worker has come to its hooks and writes its module's status no more. -/
def DestroyWorker.settled (w : DestroyWorker) : Bool :=
  match w.phase with
  | .queued | .loaded | .working | .raised _ | .wrote => false
  | _ => true

/-- The worker's hooks have read nothing that they will act on. -/
def DestroyWorker.plain (w : DestroyWorker) : Bool :=
  match w.phase with
  | .decided _ _ _ | .closing _ => false
  | _ => true

def RunOver (s : Chain) (x : Nat) : Prop :=
  ∀ w ∈ s.workers, w.module = x → w.live = false

def BeingDestroyed (s : Chain) (x : Nat) : Prop :=
  ∃ w ∈ s.workers, w.module = x ∧ w.phase = .working ∧
    ∃ l m, w.lock = some l ∧ s.rows x = some m ∧ m.base.heldBy l = true

variable (S : Teardown)

/-- Every dependent of `d` has a status without infrastructure or, in a project run, is an
in-cluster module in `destroy_failed` whose destroy run is over; and no dependent is being
destroyed by a lock holder. -/
def Barrier (s : Chain) (d : Nat) : Prop :=
  ∀ x ∈ S.modules, d ∈ x.dependencies → ∀ status, s.statusOf x.id = some status →
    (status.noInfra = true ∨ S.scope = .project ∧ isInClusterModule x = true ∧
      status = destroyFailed ∧ RunOver s x.id) ∧
    ¬ BeingDestroyed s x.id

/-- Every task that the step adds is dispatched behind the barrier. -/
def Behind (s : Chain) (_ : ChainEvent) (t : Chain) : Prop :=
  ∀ w ∈ t.workers.drop s.workers.length, Barrier S t w.module

/-! ### Races -/

/-- The worker stands between the tests and the dispatch of `x` or of a dependency of `x`. -/
def DestroyWorker.tested (w : DestroyWorker) (x : Nat) : Bool :=
  match w.phase with
  | .decided d _ _ => d == x || (S.dependencies x).contains d
  | _ => false

/-- The worker is about to write off `x`. -/
def DestroyWorker.writesOff (w : DestroyWorker) (x : Nat) : Bool :=
  match w.phase with
  | .closing ids => ids.contains x
  | _ => false

/-- The step does not fall between the reads and the commit of another worker's hook, as far as
it matters to that hook, nor dispatches a module whose earlier task has not come to its
hooks. -/
def NoRace (s : Chain) : ChainEvent → Bool
  | .commitDispatch k =>
    match s.workers[k]?.map DestroyWorker.phase with
    | some (.decided d _ _) =>
      s.workers.all (fun v ↦ v.module != d || v.settled) &&
        (s.workers.eraseIdx k).all fun v ↦ !v.tested S d && !v.writesOff d
    | _ => true
  | .handle k _ =>
    match s.workers[k]? with
    | some w => s.workers.all fun v ↦ !v.tested S w.module
    | none => true
  | .recover x _ => s.workers.all fun v ↦ !v.tested S x
  | _ => true

/-! ### Invariant -/

/-- What the tests for `d` have found and nobody has changed since. -/
structure Tested (s : Chain) (d : Nat) (seen : ModuleStatus) : Prop where
  seen : ∀ status, s.statusOf d = some status → seen = destroying → status = destroying
  runOver : RunOver s d
  cleared : ∀ x ∈ S.modules, d ∈ x.dependencies → (s.statusOf x.id).all (clears S x) = true

/-- The invariant of a run without races. -/
structure BarrierInv (s : Chain) : Prop where
  /-- A module whose destroy run is not over is `destroying` and has an active task. -/
  live : ∀ w ∈ s.workers, w.live = true →
    s.statusOf w.module = some destroying ∧ w.task.active = true
  /-- At most one worker of a module can still write its status. -/
  single : ∀ (i j : Nat) (v w : DestroyWorker), s.workers[i]? = some v →
    s.workers[j]? = some w → i ≠ j → v.module = w.module → v.settled = true ∨ w.settled = true
  tested : ∀ v ∈ s.workers, ∀ d seen deps, v.phase = .decided d seen deps → Tested S s d seen
  closing : ∀ v ∈ s.workers, ∀ ids, v.phase = .closing ids → ∀ x ∈ ids,
    s.statusOf x ≠ some destroying
  deployed : s.deployedModules = [] ∨ s.deployedModules = S.ids

variable {S} {s t : Chain} {k : Nat} {w w' : DestroyWorker}

private theorem settled_of_live (h : w.live = true) : w.settled = false := by
  unfold DestroyWorker.live at h
  unfold DestroyWorker.settled
  cases hp : w.phase <;> simp_all

private theorem not_clears_destroying (x : DestroyModule) : clears S x destroying = false := by
  simp [clears, noInfra]

private theorem BarrierInv.setWorker (h : BarrierInv S s) (hk : s.workers[k]? = some w)
    (hm : w'.module = w.module) (hlive : w'.live = true → w.live = true ∧ w'.task.active = true)
    (hsettled : w.settled = true → w'.settled = true)
    (htested : ∀ d seen deps, w'.phase = .decided d seen deps → Tested S s d seen)
    (hclosing : ∀ ids, w'.phase = .closing ids → ∀ x ∈ ids, s.statusOf x ≠ some destroying) :
    BarrierInv S (s.setWorker k w') := by
  have hw := mem_of_getElem? hk
  have hover : ∀ x, RunOver s x → RunOver (s.setWorker k w') x := by
    intro x hx v hv hvx
    rcases mem_or_eq_of_mem_set hv with hv | rfl
    · exact hx v hv hvx
    · by_contra hne
      have hwlive := (hlive (by simpa using hne)).1
      rw [hx w hw (hm ▸ hvx)] at hwlive
      cases hwlive
  have hkeep : ∀ d seen, Tested S s d seen → Tested S (s.setWorker k w') d seen :=
    fun d seen ht ↦ ⟨ht.seen, hover d ht.runOver, ht.cleared⟩
  constructor
  · intro v hv hvlive
    rcases mem_or_eq_of_mem_set hv with hv | rfl
    · exact h.live v hv hvlive
    · obtain ⟨hwlive, htask⟩ := hlive hvlive
      rw [hm]
      exact ⟨(h.live w hw hwlive).1, htask⟩
  · intro i j v u hi hj hij huv
    simp only [Chain.setWorker, getElem?_set] at hi hj
    have hsingle := h.single i j
    grind
  · intro v hv d seen deps hp
    rcases mem_or_eq_of_mem_set hv with hv | rfl
    · exact hkeep d seen (h.tested v hv d seen deps hp)
    · exact hkeep d seen (htested d seen deps hp)
  · intro v hv ids hp
    rcases mem_or_eq_of_mem_set hv with hv | rfl
    · exact h.closing v hv ids hp
    · exact hclosing ids hp
  · exact h.deployed

private theorem BarrierInv.move (h : BarrierInv S s) (hk : s.workers[k]? = some w)
    (hm : w'.module = w.module) (hlive : w'.live = false)
    (hsettled : w.settled = true → w'.settled = true) (hplain : w'.plain = true) :
    BarrierInv S (s.setWorker k w') := by
  refine h.setWorker hk hm ?_ hsettled ?_ ?_
  · rw [hlive]
    nofun
  · intro d seen deps hp
    simp [DestroyWorker.plain, hp] at hplain
  · intro ids hp
    simp [DestroyWorker.plain, hp] at hplain

/-- A worker that has tested `d` has tested every dependent of `d`. -/
private theorem tested_of_decided {d : Nat} {seen : ModuleStatus} {deps : List Nat}
    (hp : w.phase = .decided d seen deps) :
    w.tested S d = true ∧ ∀ x ∈ S.modules, d ∈ x.dependencies → w.tested S x.id = true := by
  constructor
  · simp [DestroyWorker.tested, hp]
  · intro x hx hd
    simp [DestroyWorker.tested, hp, Teardown.dependencies_of_mem hx, hd]

private theorem BarrierInv.rows (h : BarrierInv S s) (hws : t.workers = s.workers)
    (hdep : t.deployedModules = s.deployedModules ∨ t.deployedModules = [])
    (hrows : ∀ x, t.statusOf x = s.statusOf x ∨ RunOver s x ∧ t.statusOf x ≠ some destroying ∧
      ((∀ v ∈ s.workers, v.tested S x = false) ∨
        ∃ status, s.statusOf x = some status ∧ status ≠ destroying ∧
          (t.statusOf x).all ModuleStatus.noInfra = true)) :
    BarrierInv S t := by
  have hmem : ∀ v, v ∈ t.workers ↔ v ∈ s.workers := fun v ↦ by rw [hws]
  constructor
  · intro v hv hlive
    have hv := (hmem v).mp hv
    rcases hrows v.module with hsame | ⟨hover, -⟩
    · rw [hsame]
      exact h.live v hv hlive
    · rw [hover v hv rfl] at hlive
      cases hlive
  · rw [hws]
    exact h.single
  · intro v hv d seen deps hp
    have hv := (hmem v).mp hv
    have ht := h.tested v hv d seen deps hp
    obtain ⟨htd, htx⟩ := tested_of_decided hp
    refine ⟨?_, fun u hu ↦ ht.runOver u ((hmem u).mp hu), ?_⟩
    · intro status hst hseen
      rcases hrows d with hsame | ⟨-, -, hun | ⟨old, hold, hne, -⟩⟩
      · exact ht.seen status (hsame ▸ hst) hseen
      · rw [hun v hv] at htd
        cases htd
      · exact absurd (ht.seen old hold hseen) hne
    · intro x hx hd
      rcases hrows x.id with hsame | ⟨-, -, hun | ⟨-, -, -, hall⟩⟩
      · rw [hsame]
        exact ht.cleared x hx hd
      · have htested := htx x hx hd
        rw [hun v hv] at htested
        cases htested
      · cases hst : t.statusOf x.id with
        | none => rfl
        | some status =>
          rw [hst] at hall
          have hno : status.noInfra = true := hall
          simp [clears, hno]
  · intro v hv ids hp x hx
    rcases hrows x with hsame | ⟨-, hne, -⟩
    · rw [hsame]
      exact h.closing v ((hmem v).mp hv) ids hp x hx
    · exact hne
  · rcases hdep with hdep | hdep
    · rw [hdep]
      exact h.deployed
    · exact Or.inl hdep

private theorem BarrierInv.dispatch (h : BarrierInv S s) {d : Nat} {seen : ModuleStatus}
    (hrow : (s.statusOf d).isSome = true)
    (hsettled : ∀ v ∈ s.workers, v.module = d → v.settled = true)
    (htested : ∀ v ∈ s.workers, v.tested S d = false)
    (hoff : ∀ v ∈ s.workers, v.writesOff d = false)
    (hseen : ∀ status, s.statusOf d = some status → seen = destroying → status = destroying) :
    BarrierInv S (s.dispatch seen d) := by
  have hdest : (s.dispatch seen d).statusOf d = some destroying := by
    obtain ⟨status, hst⟩ := Option.isSome_iff_exists.mp hrow
    rw [statusOf_dispatch, hst, Option.map_some]
    split
    · next hs => rw [hseen status hst hs]
    · rfl
  constructor
  · intro v hv hlive
    rw [workers_dispatch, mem_append, mem_singleton] at hv
    rcases hv with hv | rfl
    · have hne : v.module ≠ d := by
        intro heq
        have hset := hsettled v hv heq
        rw [settled_of_live hlive] at hset
        cases hset
      rw [statusOf_dispatch_of_ne s hne]
      exact h.live v hv hlive
    · exact ⟨hdest, rfl⟩
  · intro i j v u hi hj hij huv
    rw [workers_dispatch, getElem?_append] at hi hj
    have hsingle := h.single i j
    grind
  · intro v hv d' seen' deps hp
    rw [workers_dispatch, mem_append, mem_singleton] at hv
    rcases hv with hv | rfl
    · have ht := h.tested v hv d' seen' deps hp
      obtain ⟨htd, htx⟩ := tested_of_decided hp
      have hne : d' ≠ d := by
        rintro rfl
        rw [htested v hv] at htd
        cases htd
      refine ⟨?_, ?_, ?_⟩
      · rw [statusOf_dispatch_of_ne s hne]
        exact ht.seen
      · intro u hu hud
        rw [workers_dispatch, mem_append, mem_singleton] at hu
        rcases hu with hu | rfl
        · exact ht.runOver u hu hud
        · exact absurd hud.symm hne
      · intro x hx hd
        have hxd : x.id ≠ d := by
          intro heq
          have hxt := htx x hx hd
          rw [heq, htested v hv] at hxt
          cases hxt
        rw [statusOf_dispatch_of_ne s hxd]
        exact ht.cleared x hx hd
    · cases hp
  · intro v hv ids hp x hx
    rw [workers_dispatch, mem_append, mem_singleton] at hv
    rcases hv with hv | rfl
    · have hxd : x ≠ d := by
        rintro rfl
        have hv' := hoff v hv
        simp [DestroyWorker.writesOff, hp, hx] at hv'
      rw [statusOf_dispatch_of_ne s hxd]
      exact h.closing v hv ids hp x hx
    · cases hp
  · exact h.deployed

private theorem BarrierInv.untested_of_live (h : BarrierInv S s) (hw : w ∈ s.workers)
    (hlive : w.live = true) : ∀ v ∈ s.workers, v.tested S w.module = false := by
  intro v hv
  by_contra hne
  rw [Bool.not_eq_false] at hne
  unfold DestroyWorker.tested at hne
  split at hne
  · next d seen deps hp =>
    have ht := h.tested v hv d seen deps hp
    rw [Bool.or_eq_true, beq_iff_eq, contains_iff_mem] at hne
    rcases hne with rfl | hd
    · rw [ht.runOver w hw rfl] at hlive
      cases hlive
    · obtain ⟨x, hx, hid, hdx⟩ := Teardown.exists_of_mem_dependencies hd
      have hclear := ht.cleared x hx hdx
      rw [hid, (h.live w hw hlive).1] at hclear
      have : clears S x destroying = true := hclear
      rw [not_clears_destroying] at this
      cases this
  · cases hne

private theorem BarrierInv.ownWrite (h : BarrierInv S s) (hk : s.workers[k]? = some w)
    (huns : w.settled = false) (hm : w'.module = w.module) (hlive : w'.live = false)
    (hplain : w'.plain = true) (htested : ∀ v ∈ s.workers, v.tested S w.module = false)
    {f : ModuleRow → ModuleRow} (hf : ∀ m, s.rows w.module = some m →
      (f m).status = m.status ∨ (f m).status ≠ destroying) :
    BarrierInv S ((s.onRow w.module f).setWorker k w') := by
  have hset : BarrierInv S (s.setWorker k w') :=
    h.move hk hm hlive (by rw [huns]; nofun) hplain
  refine hset.rows ?_ (Or.inl ?_) ?_
  · rfl
  · rfl
  intro x
  by_cases hx : x = w.module
  · subst hx
    cases hrow : s.rows w.module with
    | none =>
      left
      simp [Chain.statusOf, Chain.setWorker, Chain.onRow, hrow]
    | some m =>
      have hstat : ((s.onRow w.module f).setWorker k w').statusOf w.module =
          some (f m).status := by
        rw [statusOf_setWorker, statusOf_onRow_self, hrow, Option.map_some]
      rcases hf m hrow with hsame | hne
      · left
        rw [hstat, hsame, statusOf_setWorker, Chain.statusOf, hrow, Option.map_some]
      · right
        refine ⟨?_, by rw [hstat]; simpa using hne, Or.inl ?_⟩
        · intro v hv hvm
          obtain ⟨i, hi⟩ := getElem?_of_mem hv
          rw [Chain.setWorker, getElem?_set] at hi
          split at hi
          · split at hi
            · cases hi
              exact hlive
            · cases hi
          · next hik =>
            by_contra hne
            have hsettled := h.single i k v w hi hk (Ne.symm hik) hvm
            rw [Bool.not_eq_false] at hne
            rw [settled_of_live hne, huns] at hsettled
            simp at hsettled
        · intro v hv
          rcases mem_or_eq_of_mem_set hv with hv | rfl
          · exact htested v hv
          · unfold DestroyWorker.tested
            split
            · next d seen deps hp => simp [DestroyWorker.plain, hp] at hplain
            · rfl
  · left
    rw [statusOf_setWorker, statusOf_onRow_of_ne s hx, statusOf_setWorker]

private theorem BarrierInv.keepStatus (h : BarrierInv S s) (x : Nat) {f : ModuleRow → ModuleRow}
    (hf : ∀ m, (f m).status = m.status) : BarrierInv S (s.onRow x f) := by
  refine h.rows ?_ (Or.inl ?_) ?_
  · rfl
  · rfl
  · intro y
    left
    rw [statusOf_onRow_of_keeps s x hf]

private theorem BarrierInv.leaveTo (h : BarrierInv S s) (hk : s.workers[k]? = some w)
    (hm : w'.module = w.module) {phase : DestroyPhase}
    (hlive : DestroyWorker.live { w' with phase := phase } = false)
    (hsettled : w.settled = true → DestroyWorker.settled { w' with phase := phase } = true)
    (hplain : DestroyWorker.plain { w' with phase := phase } = true) :
    BarrierInv S (leaveTo s k w' phase) := by
  have hlock := h.keepStatus w'.module (status_leaveLock w'.lock)
  exact hlock.move hk hm hlive hsettled hplain

/-! ### Steps -/

private theorem inv_acquire (h : BarrierInv S s) (hk : s.workers[k]? = some w)
    (hp : w.phase = .loaded) (base : Row ColumnValue) (l : EntityLock) :
    BarrierInv S ((s.onRow w.module fun m ↦ { m with base := base }).setWorker k
      { w with lock := some l, phase := .working }) := by
  have hlive : w.live = true := by simp [DestroyWorker.live, hp]
  have htask := (h.live w (mem_of_getElem? hk) hlive).2
  have hlock : BarrierInv S (s.onRow w.module fun m ↦ { m with base := base }) :=
    h.keepStatus w.module fun _ ↦ rfl
  refine hlock.setWorker hk rfl (fun _ ↦ ⟨hlive, htask⟩) ?_ ?_ ?_
  · simp [DestroyWorker.settled, hp]
  · nofun
  · nofun

private theorem inv_finalWrite (h : BarrierInv S s) (hk : s.workers[k]? = some w)
    (hp : w.phase = .working) {m : ModuleRow} (hrow : s.rows w.module = some m) (l : EntityLock)
    (x : Exit) (seen : ModuleStatus) {target : ModuleStatus} (htarget : target ≠ destroying)
    (extra : List (String × ColumnValue)) :
    BarrierInv S (finalWrite s k w m l x seen target extra) := by
  have hlive : w.live = true := by simp [DestroyWorker.live, hp]
  have huns : w.settled = false := settled_of_live hlive
  have huntested := h.untested_of_live (mem_of_getElem? hk) hlive
  have hleave : ∀ exit, BarrierInv S
      (Destroy.leaveTo s k { w with task := x.taskStatus } (.raised exit)) := by
    intro exit
    exact h.leaveTo hk (by rfl) (by rfl) (by rw [huns]; nofun) (by rfl)
  have hstatus := status_transitionModuleStatus_cases seen target l extra m
  unfold finalWrite
  split
  · next m' heq =>
    rw [heq] at hstatus
    have hf : ∀ m₀, s.rows w.module = some m₀ → m'.status = m₀.status ∨ m'.status ≠ destroying := by
      intro m₀ hm₀
      cases hrow.symm.trans hm₀
      rcases hstatus with hstatus | hstatus
      · exact Or.inl hstatus
      · exact Or.inr (hstatus ▸ htarget)
    split
    · rw [Destroy.leaveTo, onRow_onRow]
      exact h.ownWrite hk huns (by rfl) (by rfl) (by rfl) huntested (by simpa using hf)
    · exact h.ownWrite hk huns (by rfl) (by rfl) (by rfl) huntested hf
  · exact hleave _
  · exact hleave _

/-- Every dependent of `d` that is a module of the teardown is looked at. -/
private theorem mem_dependents (h : BarrierInv S s) {x : DestroyModule} (hx : x ∈ S.modules)
    {d : Nat} (hd : d ∈ x.dependencies) : x ∈ dependents S s d := by
  have hid : x.id ∈ S.ids := mem_map.mpr ⟨x, hx, rfl⟩
  rcases h.deployed with hdep | hdep
  · simp [dependents, hx, hd, hdep]
  · simp [dependents, hx, hd, hdep, hid]

private theorem BarrierInv.runOver (h : BarrierInv S s) {x : Nat}
    (hx : s.activeDestroy x = false) : RunOver s x := by
  intro w hw hwx
  by_contra hne
  rw [Bool.not_eq_false] at hne
  have hactive := any_eq_false.mp hx w hw
  simp [hwx, (h.live w hw hne).2] at hactive

/-- A module that is not `destroying` has no live worker. -/
private theorem BarrierInv.runOver_of_ne (h : BarrierInv S s) {x : Nat}
    (hx : s.statusOf x ≠ some destroying) : RunOver s x := by
  intro w hw hwx
  by_contra hne
  rw [Bool.not_eq_false] at hne
  exact hx (hwx ▸ (h.live w hw hne).1)

private theorem tested_of_triggerTest (h : BarrierInv S s) {d : Nat} {seen : ModuleStatus}
    (ht : triggerTest S s d = some seen) : Tested S s d seen := by
  unfold triggerTest at ht
  split at ht
  · next status hst =>
    rw [Option.ite_none_right_eq_some, Bool.and_eq_true, Bool.and_eq_true, Bool.not_eq_true',
      Bool.not_eq_true'] at ht
    obtain ⟨⟨⟨-, hall⟩, hactive⟩, hseen⟩ := ht
    cases hseen
    refine ⟨?_, h.runOver hactive, ?_⟩
    · intro status' hst' hseen
      rw [hst] at hst'
      cases hst'
      exact hseen
    · intro x hx hd
      exact all_eq_true.mp hall x (mem_dependents h hx hd)
  · cases ht

private theorem inv_updateStackProgress (h : BarrierInv S s) :
    BarrierInv S (updateStackProgress S s) := by
  refine h.rows rfl ?_ fun _ ↦ Or.inl rfl
  exact stackProgress_snd (statuses S s) s.stackStatus s.deployedModules

private theorem inv_runTerminalDetectionStack (h : BarrierInv S s) :
    BarrierInv S (runTerminalDetectionStack s) := by
  unfold runTerminalDetectionStack
  split
  · exact h
  · split
    · exact h
    · next hterm =>
      split
      · exact h.rows rfl (Or.inl rfl) fun _ ↦ Or.inl rfl
      · rw [Bool.not_eq_true', Bool.not_eq_false] at hterm
        refine h.rows rfl (Or.inr rfl) fun x ↦ ?_
        by_cases hx : x ∈ s.deployedModules
        · have hnone : (finalizeDestroy s).statusOf x = none := by
            simp [finalizeDestroy, Chain.statusOf, hx]
          cases hst : s.statusOf x with
          | none => exact Or.inl hnone
          | some status =>
            have hmem : status ∈ scopeStatuses s :=
              mem_filterMap.mpr ⟨x, hx, hst⟩
            have hne : status ≠ destroying := by
              rintro rfl
              exact absurd (all_eq_true.mp hterm _ hmem) (by decide)
            have hne' : s.statusOf x ≠ some destroying := by simpa [hst] using hne
            right
            rw [hnone]
            exact ⟨h.runOver_of_ne hne', (by simp), Or.inr ⟨status, rfl, hne, rfl⟩⟩
        · left
          simp [finalizeDestroy, Chain.statusOf, hx]

private theorem inv_writeOff (h : BarrierInv S s) {ids : List Nat}
    (hids : ∀ x ∈ ids, s.statusOf x ≠ some destroying) :
    BarrierInv S (s.mapStatus fun x status ↦ if ids.contains x then destroyed else status) := by
  refine h.rows rfl (Or.inl rfl) fun x ↦ ?_
  rw [statusOf_mapStatus]
  by_cases hx : x ∈ ids
  · cases hst : s.statusOf x with
    | none => exact Or.inl rfl
    | some status =>
      have hne := hids x hx
      right
      refine ⟨h.runOver_of_ne hne, by simp [hx], Or.inr ⟨status, rfl, ?_, by simp [hx, noInfra]⟩⟩
      rintro rfl
      exact hne hst
  · left
    cases s.statusOf x <;> simp [hx]

/-- Terminal detection chooses modules in `destroy_failed`. -/
theorem statusOf_of_mem_inClusterFailures {x : Nat} (hx : x ∈ inClusterFailures S s) :
    s.statusOf x = some destroyFailed := by
  unfold inClusterFailures at hx
  split at hx
  · obtain ⟨m, hm, rfl⟩ := mem_map.mp hx
    simpa using (mem_filter.mp hm).2
  · cases hx

private theorem BarrierInv.commitDispatch (h : BarrierInv S s) (hk : s.workers[k]? = some w)
    {d : Nat} {seen : ModuleStatus} {deps : List Nat} (hp : w.phase = .decided d seen deps)
    (hrow : (s.rows d).isSome = true) (hok : NoRace S s (.commitDispatch k) = true) :
    BarrierInv S ((s.setWorker k { w with phase := .trigger deps }).dispatch seen d) ∧
      ∀ x ∈ S.modules, d ∈ x.dependencies →
        (s.statusOf x.id).all (clears S x) = true ∧ x.id ≠ d := by
  have ht := h.tested w (mem_of_getElem? hk) d seen deps hp
  simp only [NoRace, hk, Option.map_some, hp, Bool.and_eq_true, all_eq_true, Bool.or_eq_true,
    bne_iff_ne, Bool.not_eq_true'] at hok
  obtain ⟨hsettled, hothers⟩ := hok
  have hset : BarrierInv S (s.setWorker k { w with phase := .trigger deps }) :=
    h.move hk (by rfl) (by rfl) (fun _ ↦ rfl) (by rfl)
  have hothers : ∀ v ∈ (s.setWorker k { w with phase := .trigger deps }).workers,
      v.tested S d = false ∧ v.writesOff d = false := by
    intro v hv
    obtain ⟨i, hi⟩ := getElem?_of_mem hv
    rw [Chain.setWorker, getElem?_set] at hi
    split at hi
    · split at hi
      · cases hi
        exact ⟨rfl, rfl⟩
      · cases hi
    · next hik =>
      exact hothers v (mem_eraseIdx_iff_getElem?.mpr ⟨i, Ne.symm hik, hi⟩)
  constructor
  · apply hset.dispatch
    · rw [Chain.statusOf, Option.isSome_map]
      exact hrow
    · intro v hv hvd
      rcases mem_or_eq_of_mem_set hv with hv | rfl
      · rcases hsettled v hv with hne | hs
        · exact absurd hvd hne
        · exact hs
      · rfl
    · exact fun v hv ↦ (hothers v hv).1
    · exact fun v hv ↦ (hothers v hv).2
    · exact ht.seen
  · intro x hx hd
    refine ⟨ht.cleared x hx hd, ?_⟩
    rintro rfl
    obtain ⟨rank, hrank⟩ := S.acyclic
    exact absurd (hrank x hx _ hd) (Nat.lt_irrefl _)

private theorem inv_handle (h : BarrierInv S s) (hk : s.workers[k]? = some w) {x : Exit}
    (hp : w.phase = .raised x) (seen : Option ModuleStatus)
    (hok : NoRace S s (.handle k seen) = true) :
    BarrierInv S ((s.onRow w.module fun m ↦
        ((handlerTarget .destroy x).map fun status ↦ ormWrite seen status m).getD m).setWorker k
      { w with task := .failed, phase := afterHandler S w.module x }) := by
  have huns : w.settled = false := by simp [DestroyWorker.settled, hp]
  have htested : ∀ v ∈ s.workers, v.tested S w.module = false := by
    simpa [NoRace, hk] using hok
  have hphase : afterHandler S w.module x = .marked ∨
      ∃ deps, afterHandler S w.module x = .trigger deps := by
    unfold afterHandler
    split
    · exact Or.inl rfl
    · exact Or.inr ⟨_, rfl⟩
  refine h.ownWrite hk huns (by rfl) ?_ ?_ htested ?_
  · rcases hphase with hq | ⟨deps, hq⟩ <;> simp [DestroyWorker.live, hq]
  · rcases hphase with hq | ⟨deps, hq⟩ <;> simp [DestroyWorker.plain, hq]
  · intro m₀ _
    cases hh : handlerTarget .destroy x with
    | none => exact Or.inl rfl
    | some status =>
      simp only [Option.map_some, Option.getD_some, ormWrite]
      split
      · exact Or.inl rfl
      · right
        rintro rfl
        cases x <;> simp [handlerTarget, failedStatus] at hh

private theorem inv_workerMoves (h : BarrierInv S s) (hk : s.workers[k]? = some w)
    {m : ModuleRow} (hrow : s.rows w.module = some m) {e : ChainEvent}
    (hok : NoRace S s e = true) (hst : WorkerMoves S s k w m e t) : BarrierInv S t := by
  have hw := mem_of_getElem? hk
  cases hst with
  | load hp =>
    refine h.setWorker hk (by rfl) ?_ ?_ nofun nofun
    · intro _
      exact ⟨by simp [DestroyWorker.live, hp], rfl⟩
    · simp [DestroyWorker.settled, hp]
  | skip hp _ =>
    have hlive : w.live = true := by simp [DestroyWorker.live, hp]
    exact h.ownWrite hk (settled_of_live hlive) (by rfl) (by rfl) (by rfl)
      (h.untested_of_live hw hlive) fun _ _ ↦ Or.inr (by simp)
  | acquire reclaim now base l hp hl => exact inv_acquire h hk hp base l
  | timeOut reclaim now base hp hl =>
    exact h.move hk (by rfl) (by rfl) (by simp [DestroyWorker.settled, hp]) (by rfl)
  | refresh now l hl => exact h.keepStatus w.module fun _ ↦ rfl
  | write x seen extra l target hp hl htarget =>
    refine inv_finalWrite h hk hp hrow _ x seen ?_ extra
    rintro rfl
    cases x <;> simp [fencedTarget] at htarget
  | raise x hx hp =>
    refine h.leaveTo hk (by rfl) (by rfl) ?_ (by rfl)
    rcases hp with hp | hp | hp <;> simp [DestroyWorker.settled, hp]
  | handle x seen hp => exact inv_handle h hk hp seen hok
  | progress hp =>
    have hprog : BarrierInv S (if S.scope = .stack then updateStackProgress S s else s) := by
      split
      · exact inv_updateStackProgress h
      · exact h
    have hk' : (if S.scope = .stack then updateStackProgress S s else s).workers[k]? = some w := by
      split <;> exact hk
    exact hprog.move hk' (by rfl) (by rfl) (fun _ ↦ rfl) (by rfl)
  | decide d seen deps hp htest =>
    refine h.setWorker hk (by rfl) nofun (fun _ ↦ rfl) ?_ nofun
    intro d seen deps hp
    cases hp
    exact tested_of_triggerTest h htest
  | looked _ | pass _ _ _ _ | abort _ =>
    exact h.move hk (by rfl) (by rfl) (fun _ ↦ rfl) (by rfl)
  | dispatch d seen deps hp hd => exact (h.commitDispatch hk hp hd hok).1
  | detectStack hS hp =>
    have hk' : (runTerminalDetectionStack s).workers[k]? = some w := by
      unfold runTerminalDetectionStack
      repeat' split
      all_goals exact hk
    exact (inv_runTerminalDetectionStack h).leaveTo hk' (by rfl) (by rfl) (fun _ ↦ rfl) (by rfl)
  | detectProject hS hp =>
    refine h.setWorker hk (by rfl) nofun (fun _ ↦ rfl) nofun ?_
    intro ids hids x hx
    cases hids
    rw [statusOf_of_mem_inClusterFailures hx]
    nofun
  | writeOff ids hp =>
    have hoff := inv_writeOff h (h.closing w hw ids hp)
    exact hoff.leaveTo hk (by rfl) (by rfl) (fun _ ↦ rfl) (by rfl)

/-! ### First wave -/

private theorem barrierInv_of_no_workers (hws : s.workers = [])
    (hdep : s.deployedModules = [] ∨ s.deployedModules = S.ids) : BarrierInv S s := by
  constructor
  · simp [hws]
  · simp [hws]
  · simp [hws]
  · simp [hws]
  · exact hdep

/-- What the wave keeps: its workers are queued behind the barrier of cleared dependents. -/
structure WaveInv (S : Teardown) (s : Chain) : Prop extends BarrierInv S s where
  queued : ∀ w ∈ s.workers, w.phase = .queued
  cleared : ∀ w ∈ s.workers, ∀ x ∈ S.modules, w.module ∈ x.dependencies →
    (s.statusOf x.id).all ModuleStatus.noInfra = true

private theorem waveInv_dispatch (h : WaveInv S s) {m : DestroyModule} {status : ModuleStatus}
    (hst : s.statusOf m.id = some status) (hinfra : status.noInfra = false)
    (hdeps : ∀ x ∈ S.modules, m.id ∈ x.dependencies →
      (s.statusOf x.id).all ModuleStatus.noInfra = true)
    (hactive : s.activeDestroy m.id = false) : WaveInv S (s.dispatch status m.id) := by
  have hne : ∀ x : DestroyModule, (s.statusOf x.id).all ModuleStatus.noInfra = true →
      (s.dispatch status m.id).statusOf x.id = s.statusOf x.id := by
    intro x hx
    apply statusOf_dispatch_of_ne
    intro heq
    rw [heq, hst] at hx
    have hno : status.noInfra = true := hx
    rw [hinfra] at hno
    cases hno
  have hfree : ∀ v ∈ s.workers, v.module ≠ m.id := by
    intro v hv heq
    have hlive : v.live = true := by simp [DestroyWorker.live, h.queued v hv]
    have hover := h.runOver hactive v hv heq
    rw [hlive] at hover
    cases hover
  refine ⟨?_, ?_, ?_⟩
  · apply h.toBarrierInv.dispatch
    · rw [hst]
      rfl
    · exact fun v hv heq ↦ absurd heq (hfree v hv)
    · intro v hv
      simp [DestroyWorker.tested, h.queued v hv]
    · intro v hv
      simp [DestroyWorker.writesOff, h.queued v hv]
    · intro status' hst' hseen
      rw [hst] at hst'
      cases hst'
      exact hseen
  · intro v hv
    rw [workers_dispatch, mem_append, mem_singleton] at hv
    rcases hv with hv | rfl
    · exact h.queued v hv
    · rfl
  · intro v hv x hx hd
    rw [workers_dispatch, mem_append, mem_singleton] at hv
    have hall : (s.statusOf x.id).all ModuleStatus.noInfra = true := by
      rcases hv with hv | rfl
      · exact h.cleared v hv x hx hd
      · exact hdeps x hx hd
    rw [hne x hall]
    exact hall

private theorem waveInv_waveDispatch (h : WaveInv S s) (m : DestroyModule) :
    WaveInv S (waveDispatch S s m) := by
  unfold waveDispatch
  split
  · next status hst =>
    split
    · next hcond =>
      rw [Bool.and_eq_true, Bool.and_eq_true, Bool.not_eq_true', Bool.not_eq_true'] at hcond
      obtain ⟨⟨hinfra, hall⟩, hactive⟩ := hcond
      refine waveInv_dispatch h hst hinfra ?_ hactive
      intro x hx hd
      exact all_eq_true.mp hall x (mem_dependents h.toBarrierInv hx hd)
    · exact h
  · exact h

private theorem waveInv_dispatchFirstDestroyWave (force : Bool) (hws : s.workers = [])
    (hdep : s.deployedModules = [] ∨ s.deployedModules = S.ids) :
    WaveInv S (dispatchFirstDestroyWave S force s) := by
  have hstart : WaveInv S (if force && S.scope == .project then forceDestroy S s else s) := by
    split
    · exact ⟨barrierInv_of_no_workers hws hdep, by simp [forceDestroy, Chain.mapStatus, hws],
        by simp [forceDestroy, Chain.mapStatus, hws]⟩
    · exact ⟨barrierInv_of_no_workers hws hdep, by simp [hws], by simp [hws]⟩
  unfold dispatchFirstDestroyWave
  generalize (if force && S.scope == .project then forceDestroy S s else s) = a at hstart ⊢
  induction S.modules generalizing a with
  | nil => exact hstart
  | cons m ms ih => exact ih _ (waveInv_waveDispatch hstart m)

/-! ### Runs -/

private theorem inv_recover (h : BarrierInv S s) {x : Nat} (hactive : s.activeDestroy x = false)
    (htested : ∀ v ∈ s.workers, v.tested S x = false) (lastTask : Option TaskStatus) :
    BarrierInv S (s.onRow x fun m ↦ { m with status := recoverStale lastTask m.status }) := by
  refine h.rows (by rfl) (Or.inl (by rfl)) fun y ↦ ?_
  by_cases hy : y = x
  · subst hy
    rw [statusOf_onRow_self]
    cases hrow : s.rows y with
    | none =>
      left
      rw [Chain.statusOf, hrow]
      rfl
    | some m =>
      rcases recoverStale_cases lastTask m.status with hsame | hne
      · left
        rw [Chain.statusOf, hrow, Option.map_some, hsame, Option.map_some]
      · right
        exact ⟨h.runOver hactive, by simpa using hne, Or.inl htested⟩
  · left
    exact statusOf_onRow_of_ne s hy _

private theorem inv_chainStep (h : BarrierInv S s) {e : ChainEvent} (hok : NoRace S s e = true)
    (hst : chainStep S s e = some t) : BarrierInv S t := by
  cases hact : e.actor with
  | none =>
    cases e with
    | firstWave force =>
      simp only [chainStep, Option.ite_none_right_eq_some] at hst
      cases hst.2
      exact (waveInv_dispatchFirstDestroyWave force hst.1 h.deployed).toBarrierInv
    | outside x op =>
      cases hst
      exact h.keepStatus x fun _ ↦ rfl
    | recover x lastTask =>
      simp only [chainStep, Option.ite_none_right_eq_some, Bool.and_eq_true,
        Bool.not_eq_true'] at hst
      obtain ⟨⟨-, hactive⟩, hst⟩ := hst
      cases hst
      exact inv_recover h hactive (by simpa [NoRace] using hok) lastTask
    | _ => cases hact
  | some k =>
    obtain ⟨w, hw, ⟨m, hm, hst⟩ | ⟨-, -, rfl⟩⟩ := workerMoves_of_chainStep hact hst
    · exact inv_workerMoves h hw hm hok hst
    · exact h.move hw (by rfl) (by rfl) (fun _ ↦ rfl) (by rfl)

private theorem length_workers_workerMoves {m : ModuleRow} {e : ChainEvent}
    (hst : WorkerMoves S s k w m e t) :
    t.workers.length = s.workers.length ∨ ∃ d seen deps, e = .commitDispatch k ∧
      w.phase = .decided d seen deps ∧ (s.rows d).isSome = true ∧
      t = (s.setWorker k { w with phase := .trigger deps }).dispatch seen d := by
  have hset : ∀ (u : Chain) w', u.workers = s.workers →
      (u.setWorker k w').workers.length = s.workers.length := by
    intro u w' hu
    rw [Chain.setWorker, length_set, hu]
  cases hst with
  | dispatch d seen deps hp hrow => exact Or.inr ⟨d, seen, deps, rfl, hp, hrow, rfl⟩
  | refresh now l hl => exact Or.inl rfl
  | write x seen extra l target hp hl htarget =>
    left
    unfold finalWrite
    repeat' split
    all_goals exact hset _ _ rfl
  | progress hp =>
    refine Or.inl (hset _ _ ?_)
    split <;> rfl
  | detectStack hS hp =>
    refine Or.inl (hset _ _ ?_)
    unfold runTerminalDetectionStack
    repeat' split
    all_goals rfl
  | _ => exact Or.inl (hset _ _ rfl)

private theorem BarrierInv.barrier (h : BarrierInv S s) {d : Nat}
    (hclear : ∀ x ∈ S.modules, d ∈ x.dependencies → (s.statusOf x.id).all (clears S x) = true) :
    Barrier S s d := by
  intro x hx hd status hst
  have hclear := hclear x hx hd
  rw [hst] at hclear
  have hclear : clears S x status = true := hclear
  have hover : RunOver s x.id := by
    apply h.runOver_of_ne
    rw [hst]
    rintro heq
    cases heq
    rw [not_clears_destroying] at hclear
    cases hclear
  constructor
  · unfold clears at hclear
    simp only [Bool.or_eq_true, Bool.and_eq_true, beq_iff_eq] at hclear
    rcases hclear with hno | ⟨⟨hfailed, hscope⟩, hin⟩
    · exact Or.inl hno
    · exact Or.inr ⟨hscope, hin, hfailed, hover⟩
  · rintro ⟨w, hw, hwx, hp, -⟩
    have hlive : w.live = true := by simp [DestroyWorker.live, hp]
    rw [hover w hw hwx] at hlive
    cases hlive

private theorem behind_chainStep (h : BarrierInv S s) {e : ChainEvent}
    (hok : NoRace S s e = true) (hst : chainStep S s e = some t) : Behind S s e t := by
  have ht := inv_chainStep h hok hst
  have hnone : t.workers.length = s.workers.length → Behind S s e t := by
    intro hlen v hv
    rw [← hlen, drop_length] at hv
    cases hv
  cases hact : e.actor with
  | none =>
    cases e with
    | firstWave force =>
      simp only [chainStep, Option.ite_none_right_eq_some] at hst
      cases hst.2
      have hwave := waveInv_dispatchFirstDestroyWave force hst.1 h.deployed
      intro v hv
      apply ht.barrier
      intro x hx hd
      have hall := hwave.cleared v (mem_of_mem_drop hv) x hx hd
      cases hstat : (dispatchFirstDestroyWave S force s).statusOf x.id with
      | none => rfl
      | some status =>
        rw [hstat] at hall
        have hno : status.noInfra = true := hall
        simp [clears, hno]
    | outside x op =>
      cases hst
      exact hnone rfl
    | recover x lastTask =>
      simp only [chainStep, Option.ite_none_right_eq_some] at hst
      cases hst.2
      exact hnone rfl
    | _ => cases hact
  | some k =>
    obtain ⟨w, hw, ⟨m, -, hst⟩ | ⟨-, -, rfl⟩⟩ := workerMoves_of_chainStep hact hst
    · rcases length_workers_workerMoves hst with hlen | ⟨d, seen, deps, rfl, hp, hrow, rfl⟩
      · exact hnone hlen
      · have hcommit := (h.commitDispatch hw hp hrow hok).2
        intro v hv
        have hv : v = ⟨d, .queued, none, .queued⟩ := by
          simpa [Chain.setWorker] using hv
        subst hv
        apply ht.barrier
        intro x hx hd
        obtain ⟨hclear, hne⟩ := hcommit x hx hd
        rw [statusOf_dispatch_of_ne _ hne]
        exact hclear
    · exact hnone (by simp [Chain.setWorker])

def clusterOnCloud : Teardown :=
  ⟨.project, [⟨0, [1], some ⟨some .kubernetes, none⟩⟩, ⟨1, [], some ⟨some .opentofu, none⟩⟩],
    by decide, ⟨fun x ↦ 1 - x, by decide⟩⟩

/-- Another task holds the lock of the in-cluster module, whose destroy gives up waiting. -/
def lockedOut : List ChainEvent :=
  [.outside 0 (.acquire 30 99 0), .firstWave false, .load 0, .acquire 0 30 10000000,
    .handle 0 none, .test 0, .commitDispatch 0]

/-- Two cloud modules on an in-cluster module, which is on a cloud module. -/
def twoOnCluster : Teardown :=
  ⟨.project, [⟨0, [2], none⟩, ⟨1, [2], none⟩, ⟨2, [3], some ⟨some .kubernetes, none⟩⟩,
      ⟨3, [], none⟩],
    by decide, ⟨fun x ↦ 3 - x, by decide⟩⟩

/-- The first two modules are destroyed, both their triggers test the in-cluster module before
either commits, and of its two tasks the second gives up waiting for the lock of the first. -/
def dispatchedTwice : List ChainEvent :=
  [.firstWave false, .load 0, .acquire 0 30 0, .write 0 .success destroying [("outputs", .null)],
    .load 1, .acquire 1 30 0, .write 1 .success destroying [("outputs", .null)], .progress 0,
    .progress 1, .test 0, .test 1, .commitDispatch 0, .commitDispatch 1, .load 2,
    .acquire 2 30 0, .load 3, .acquire 3 30 10000000, .handle 3 none, .test 3]

end BnkForge.Destroy
