import BnkForge.Destroy.Completeness

/-!
# Terminal detection of a project's destroy

`_run_terminal_detection_project` (`backend/tasks/_tofu_helpers.py:682–806`) reads the statuses
of all modules, decides from them, and commits its decision later. Its sibling for stacks
holds the stack row from the read to the commit; this one holds nothing. The decisions that
are read and not yet committed are recorded beside the chain.
-/

namespace BnkForge.Destroy

open ModuleStatus Lock BnkForge.Module Transition List

/-- What terminal detection decides. -/
inductive Verdict
  | inProgress
  | finalize
  | failed
  /-- The failed modules are in-cluster and are set to `destroyed`; then finalize. -/
  | reconcile (ids : List Nat)
  deriving DecidableEq, Repr

namespace Verdict

def declared : Verdict → Bool
  | inProgress => false
  | _ => true

/-- The modules that are set to `destroyed`. -/
def ids : Verdict → List Nat
  | reconcile ids => ids
  | _ => []

end Verdict

/-- The decision of `_run_terminal_detection_project` on the modules that it has read, where the
newest destroy task has a run handle. -/
def projectVerdict (rows : List (DestroyModule × ModuleStatus)) : Verdict :=
  let toDestroy := rows.filter (!·.2.noInfra)
  if toDestroy.any (!·.2.terminalDestroy) then .inProgress
  else
    let failed := toDestroy.filter (·.2 == destroyFailed)
    let inClusterFailed := failed.filter (isInClusterModule ·.1)
    let nonClusterFailed := failed.filter (!isInClusterModule ·.1)
    if inClusterFailed ≠ [] ∧ nonClusterFailed = [] then
      .reconcile (inClusterFailed.map (·.1.id))
    else if failed ≠ [] then .failed
    else .finalize

/-- The decision of `_run_terminal_detection_project_legacy`, where it has none. -/
def legacyVerdict (rows : List (DestroyModule × ModuleStatus)) : Verdict :=
  let active := rows.filter (!·.2.neverApplied)
  if active.any (!·.2.terminalDestroy) then .inProgress
  else if active.any (·.2 == destroyFailed) then .failed
  else .finalize

variable (S : Teardown)

def moduleRows (s : Chain) : List (DestroyModule × ModuleStatus) :=
  S.modules.filterMap fun m ↦ (s.statusOf m.id).map (m, ·)

def AllTerminal (s : Chain) : Prop :=
  ∀ m ∈ S.modules, ∀ status, s.statusOf m.id = some status → status.terminalDestroy = true

def NoCloudFailure (s : Chain) : Prop :=
  ∀ m ∈ S.modules, isInClusterModule m = false → s.statusOf m.id ≠ some destroyFailed

/-! ### Runs with the decisions under way -/

/-- The database during a destroy run, with the decisions that are not yet committed by the
positions of their workers. -/
structure Watched where
  chain : Chain
  verdicts : List (Nat × Verdict)

/-- What can happen next. -/
inductive WatchEvent
  | chain (e : ChainEvent)
  /-- Terminal detection finds no run handle on the newest destroy task. -/
  | legacy (k : Nat)

/-- The decisions under way after a step of the chain. -/
def noted (s : Watched) : ChainEvent → List (Nat × Verdict)
  | .detect k => (k, projectVerdict (moduleRows S s.chain)) :: s.verdicts
  | .writeOff k | .vanish k => s.verdicts.filter fun p ↦ p.1 != k
  | _ => s.verdicts

/-- One event, `none` when it cannot happen. -/
def watchStep (s : Watched) : WatchEvent → Option Watched
  | .chain e => (chainStep S s.chain e).map fun c ↦ ⟨c, noted S s e⟩
  | .legacy k => s.chain.workers[k]?.bind fun w ↦
      if w.phase = .detect then
        some ⟨s.chain.setWorker k { w with phase := .closing [] },
          (k, legacyVerdict (moduleRows S s.chain)) :: s.verdicts⟩
      else none

def DetectionSound (s : Watched) (e : WatchEvent) (t : Watched) : Prop :=
  (∀ k, e = .chain (.detect k) ∨ e = .legacy k → t.chain.statusOf = s.chain.statusOf) ∧
    ∀ k, e = .chain (.writeOff k) → ∃ v, (k, v) ∈ s.verdicts ∧
      (v.declared = true → AllTerminal S s.chain) ∧
      ∀ x, t.chain.statusOf x ≠ s.chain.statusOf x →
        s.chain.statusOf x = some destroyFailed ∧ t.chain.statusOf x = some destroyed ∧
          S.inCluster x = true ∧ NoCloudFailure S s.chain

/-- While a decision is under way, no trigger commits a dispatch when the run is to be declared
finished, and no worker fails outside the cluster when modules are to be reconciled. -/
def Undisturbed (s : Watched) : WatchEvent → Prop
  | .chain (.commitDispatch _) => ∀ p ∈ s.verdicts, p.2.declared = false
  | .chain (.write k x _ _) => x = .success ∨
      ∀ w ∈ s.chain.workers[k]?, S.inCluster w.module = true ∨ ∀ p ∈ s.verdicts, p.2.ids = []
  | .chain (.handle k _) =>
      ∀ w ∈ s.chain.workers[k]?, S.inCluster w.module = true ∨ ∀ p ∈ s.verdicts, p.2.ids = []
  | _ => True

instance (s : Watched) (e : WatchEvent) : Decidable (Undisturbed S s e) :=
  match e with
  | .chain (.commitDispatch _) => inferInstanceAs (Decidable (∀ p ∈ s.verdicts, _))
  | .chain (.write k x _ _) => inferInstanceAs (Decidable (x = .success ∨
      ∀ w ∈ s.chain.workers[k]?, S.inCluster w.module = true ∨ ∀ p ∈ s.verdicts, p.2.ids = []))
  | .chain (.handle k _) => inferInstanceAs (Decidable
      (∀ w ∈ s.chain.workers[k]?, S.inCluster w.module = true ∨ ∀ p ∈ s.verdicts, p.2.ids = []))
  | .legacy _ | .chain (.firstWave _) | .chain (.outside _ _) | .chain (.recover _ _)
  | .chain (.load _) | .chain (.skip _) | .chain (.acquire _ _ _) | .chain (.refresh _ _)
  | .chain (.raise _ _) | .chain (.progress _) | .chain (.test _) | .chain (.abort _)
  | .chain (.detect _) | .chain (.writeOff _) | .chain (.vanish _) => .isTrue trivial

/-! ### What the decision says -/

variable {S} {s t : Chain}

theorem mem_moduleRows {r : DestroyModule × ModuleStatus} :
    r ∈ moduleRows S s ↔ r.1 ∈ S.modules ∧ s.statusOf r.1.id = some r.2 := by
  rw [moduleRows, mem_filterMap]
  constructor
  · rintro ⟨m, hm, hr⟩
    obtain ⟨status, hst, rfl⟩ := Option.map_eq_some_iff.mp hr
    exact ⟨hm, hst⟩
  · rintro ⟨hm, hst⟩
    exact ⟨r.1, hm, by rw [hst]; rfl⟩

private theorem any_nonTerminal_iff {p : ModuleStatus → Bool}
    (hp : ∀ status, status.terminalDestroy = false → p status = false) :
    ((moduleRows S s).filter (!p ·.2)).any (!·.2.terminalDestroy) = true ↔ ¬ AllTerminal S s := by
  rw [any_eq_true]
  constructor
  · rintro ⟨r, hr, hbad⟩ hall
    obtain ⟨hm, hst⟩ := mem_moduleRows.mp (mem_of_mem_filter hr)
    rw [hall r.1 hm r.2 hst] at hbad
    cases hbad
  · intro hnot
    simp only [AllTerminal, not_forall, Bool.not_eq_true] at hnot
    obtain ⟨m, hm, status, hst, hterm⟩ := hnot
    refine ⟨(m, status), mem_filter.mpr ⟨mem_moduleRows.mpr ⟨hm, hst⟩, ?_⟩, by simp [hterm]⟩
    simp [hp status hterm]

private theorem noInfra_of_not_terminal (status : ModuleStatus)
    (h : status.terminalDestroy = false) : status.noInfra = false := by
  cases status <;> first | rfl | cases h

private theorem neverApplied_of_not_terminal (status : ModuleStatus)
    (h : status.terminalDestroy = false) : status.neverApplied = false := by
  cases status <;> first | rfl | cases h

theorem allTerminal_of_declared (h : (projectVerdict (moduleRows S s)).declared = true) :
    AllTerminal S s := by
  by_contra hnot
  rw [projectVerdict, if_pos ((any_nonTerminal_iff noInfra_of_not_terminal).mpr hnot)] at h
  cases h

theorem allTerminal_of_declared_legacy (h : (legacyVerdict (moduleRows S s)).declared = true) :
    AllTerminal S s := by
  by_contra hnot
  rw [legacyVerdict, if_pos ((any_nonTerminal_iff neverApplied_of_not_terminal).mpr hnot)] at h
  cases h

private theorem map_failed (S : Teardown) (s : Chain) :
    (((moduleRows S s).filter (!·.2.noInfra)).filter (·.2 == destroyFailed)).map Prod.fst =
      failedModules S s := by
  rw [moduleRows, failedModules, filter_filter]
  induction S.modules with
  | nil => rfl
  | cons m ms ih =>
    cases hst : s.statusOf m.id with
    | none => simpa [hst] using ih
    | some status =>
      by_cases hfailed : status = destroyFailed
      · subst hfailed
        simpa [hst, noInfra] using ih
      · simpa [hst, hfailed] using ih

theorem ids_projectVerdict (S : Teardown) (s : Chain) :
    (projectVerdict (moduleRows S s)).ids = inClusterFailures S s := by
  have hfailed := map_failed S s
  simp only [projectVerdict]
  by_cases hterm : AllTerminal S s
  · have hnone := mt (any_nonTerminal_iff noInfra_of_not_terminal).mp (not_not_intro hterm)
    have hall : (statuses S s).all terminalDestroy = true := by
      rw [all_eq_true]
      intro status hst
      obtain ⟨m, hm, hst⟩ := mem_filterMap.mp hst
      exact hterm m hm status hst
    rw [if_neg hnone, inClusterFailures, hall, Bool.true_and, ← hfailed]
    generalize ((moduleRows S s).filter (!·.2.noInfra)).filter (·.2 == destroyFailed) = failed
    by_cases hcloud : failed.all (isInClusterModule ·.1) = true
    · have hin : failed.filter (isInClusterModule ·.1) = failed :=
        filter_eq_self.mpr (all_eq_true.mp hcloud)
      have hout : failed.filter (!isInClusterModule ·.1) = [] := by
        rw [filter_eq_nil_iff]
        intro r hr
        simp [all_eq_true.mp hcloud r hr]
      rw [hin, hout, all_map]
      by_cases hempty : failed = []
      · simp [hempty, Verdict.ids]
      · simp only [hempty, ne_eq, not_false_eq_true, and_self, if_true, Verdict.ids]
        rw [map_map]
        exact (if_pos hcloud).symm
    · have hout : failed.filter (!isInClusterModule ·.1) ≠ [] := by
        intro hnil
        apply hcloud
        rw [all_eq_true]
        intro r hr
        simpa using filter_eq_nil_iff.mp hnil r hr
      have hne : failed ≠ [] := by
        intro hnil
        rw [hnil] at hout
        exact hout rfl
      rw [if_neg (fun h ↦ hout h.2), if_pos hne, all_map]
      exact (if_neg hcloud).symm
  · have hany := (any_nonTerminal_iff noInfra_of_not_terminal).mpr hterm
    have hall : (statuses S s).all terminalDestroy = false := by
      rw [← Bool.not_eq_true, all_eq_true]
      intro hall
      apply hterm
      intro m hm status hst
      exact hall status (mem_filterMap.mpr ⟨m, hm, hst⟩)
    rw [if_pos hany, inClusterFailures, hall, Bool.false_and]
    rfl

theorem inClusterFailures_spec {x : Nat} (hx : x ∈ inClusterFailures S s) :
    S.inCluster x = true ∧ s.statusOf x = some destroyFailed ∧ NoCloudFailure S s := by
  refine ⟨?_, statusOf_of_mem_inClusterFailures hx, ?_⟩
  · unfold inClusterFailures at hx
    split at hx
    · next h =>
      rw [Bool.and_eq_true, all_eq_true, all_eq_true] at h
      obtain ⟨m, hm, rfl⟩ := mem_map.mp hx
      exact any_eq_true.mpr
        ⟨m, mem_of_mem_filter hm, by rw [beq_self_eq_true, h.2 m hm]; rfl⟩
    · cases hx
  · intro m hm hcloud hst
    unfold inClusterFailures at hx
    split at hx
    · next h =>
      rw [Bool.and_eq_true, all_eq_true, all_eq_true] at h
      have hin := h.2 m (mem_filter.mpr ⟨hm, by rw [hst]; rfl⟩)
      rw [hcloud] at hin
      cases hin
    · cases hx

/-! ### What a step does to the statuses -/

/-- The step may write `destroy_failed` on the module. -/
def Fails (s : Chain) (e : ChainEvent) (x : Nat) : Prop :=
  ∃ k w, s.workers[k]? = some w ∧ w.module = x ∧
    ((∃ exit seen extra, e = .write k exit seen extra ∧ exit ≠ .success) ∨ ∃ seen, e = .handle k seen)

variable {k : Nat} {w : DestroyWorker}

private theorem statusOf_finalWrite {m : ModuleRow} (hm : s.rows w.module = some m)
    (l : EntityLock) (exit : Exit) (seen target : ModuleStatus)
    (extra : List (String × ColumnValue)) {x : Nat} {status : ModuleStatus}
    (hx : (finalWrite s k w m l exit seen target extra).statusOf x = some status) :
    s.statusOf x = some status ∨ x = w.module ∧ status = target := by
  have hcases := status_transitionModuleStatus_cases seen target l extra m
  -- the row after the write is the one the transition returns
  have hrow : ∀ m', (transitionModuleStatus seen target (some l) extra m).1 = m' →
      (s.onRow w.module fun _ ↦ m').statusOf x = some status →
      s.statusOf x = some status ∨ x = w.module ∧ status = target := by
    intro m' hm' hx
    by_cases hxw : x = w.module
    · subst hxw
      rw [statusOf_onRow_self, hm, Option.map_some, Option.some.injEq] at hx
      rw [hm', hx] at hcases
      rcases hcases with hkeep | hset
      · exact Or.inl (by rw [Chain.statusOf, hm, hkeep]; rfl)
      · exact Or.inr ⟨rfl, hset⟩
    · rw [statusOf_onRow_of_ne s hxw] at hx
      exact Or.inl hx
  unfold finalWrite at hx
  split at hx
  · next m' heq =>
    apply hrow m' (by rw [heq])
    split at hx
    · rwa [statusOf_leaveTo] at hx
    · exact hx
  · rw [statusOf_leaveTo] at hx
    exact Or.inl hx
  · rw [statusOf_leaveTo] at hx
    exact Or.inl hx

private theorem statusOf_workerMoves (hS : S.scope = .project) {m : ModuleRow} {e : ChainEvent}
    (hk : s.workers[k]? = some w) (hm : s.rows w.module = some m) (hd : e ≠ .commitDispatch k)
    (hst : WorkerMoves S s k w m e t) {x : Nat} {status : ModuleStatus}
    (hx : t.statusOf x = some status) :
    s.statusOf x = some status ∨ status = destroyed ∨ status = destroyFailed ∧ Fails s e x := by
  cases hst with
  | load _ | timeOut _ _ _ _ _ | looked _ | decide _ _ _ _ _ | pass _ _ _ _ | abort _
  | detectProject _ _ => exact Or.inl hx
  | skip _ _ =>
    rw [statusOf_setWorker] at hx
    by_cases hxw : x = w.module
    · subst hxw
      rw [statusOf_onRow_self, hm] at hx
      exact Or.inr (Or.inl (Option.some.inj hx).symm)
    · rw [statusOf_onRow_of_ne s hxw] at hx
      exact Or.inl hx
  | acquire _ _ _ _ _ _ | refresh _ _ _ =>
    left
    exact (congrFun (statusOf_onRow_of_keeps s w.module (by intro _; rfl)) x).symm.trans hx
  | write exit seen extra l target hp hl htarget =>
    rcases statusOf_finalWrite hm l exit seen target extra hx with hkeep | ⟨rfl, rfl⟩
    · exact Or.inl hkeep
    · right
      cases exit <;> simp only [fencedTarget, Option.map_some, Option.map_none, Option.some.injEq,
        reduceCtorEq] at htarget
      · exact Or.inl htarget.symm
      · exact Or.inr ⟨htarget.symm, k, w, hk, rfl, Or.inl ⟨_, _, _, rfl, (by simp)⟩⟩
      · exact Or.inr ⟨htarget.symm, k, w, hk, rfl, Or.inl ⟨_, _, _, rfl, (by simp)⟩⟩
  | raise _ _ _ =>
    rw [statusOf_leaveTo] at hx
    exact Or.inl hx
  | handle exit seen hp =>
    rw [statusOf_setWorker] at hx
    by_cases hxw : x = w.module
    · subst hxw
      rw [statusOf_onRow_self, hm, Option.map_some, Option.some.injEq] at hx
      by_cases hkeep : m.status = status
      · exact Or.inl (by rw [Chain.statusOf, hm, Option.map_some, hkeep])
      · refine Or.inr (Or.inr ⟨?_, k, w, hk, rfl, Or.inr ⟨seen, rfl⟩⟩)
        cases exit <;> simp [handlerTarget, failedStatus, ormWrite] at hx <;> grind
    · rw [statusOf_onRow_of_ne s hxw] at hx
      exact Or.inl hx
  | progress _ =>
    rw [if_neg (by rw [hS]; decide)] at hx
    exact Or.inl hx
  | dispatch _ _ _ _ _ => exact absurd rfl hd
  | detectStack hstack _ => cases hS.symm.trans hstack
  | writeOff ids hp =>
    rw [statusOf_leaveTo, statusOf_mapStatus, Option.map_eq_some_iff] at hx
    obtain ⟨status₀, hst₀, rfl⟩ := hx
    split
    · exact Or.inr (Or.inl rfl)
    · exact Or.inl hst₀

/-- Without a dispatch a status stays, becomes `destroyed`, or becomes `destroy_failed` by a
worker that fails; only the first wave and the recovery do otherwise. -/
theorem statusOf_chainStep (hS : S.scope = .project) {e : ChainEvent}
    (hst : chainStep S s e = some t) (hd : ∀ k, e ≠ .commitDispatch k) {x : Nat}
    {status : ModuleStatus} (hx : t.statusOf x = some status) :
    s.statusOf x = some status ∨ status = destroyed ∨ (status = destroyFailed ∧ Fails s e x) ∨
      (∃ force, e = .firstWave force) ∨ ∃ last, e = .recover x last := by
  by_cases hactor : ∃ k, e.actor = some k
  · obtain ⟨k, he⟩ := hactor
    obtain ⟨w, hk, ⟨m, hm, hst⟩ | ⟨-, -, rfl⟩⟩ := workerMoves_of_chainStep he hst
    · have hcases := statusOf_workerMoves hS hk hm (hd k) hst hx
      exact hcases.imp_right (Or.imp_right Or.inl)
    · exact Or.inl hx
  · cases e with
    | firstWave force => exact Or.inr (Or.inr (Or.inr (Or.inl ⟨force, rfl⟩)))
    | outside y op =>
      left
      cases Option.some.inj hst
      exact (congrFun (statusOf_onRow_of_keeps s y (by intro _; rfl)) x).symm.trans hx
    | recover y last =>
      by_cases hxy : x = y
      · exact Or.inr (Or.inr (Or.inr (Or.inr ⟨last, by rw [hxy]⟩)))
      · left
        rw [chainStep, Option.ite_none_right_eq_some] at hst
        cases hst.2
        rwa [statusOf_onRow_of_ne s hxy] at hx
    | _ => exact absurd ⟨_, rfl⟩ hactor

/-! ### Decisions under way -/

/-- What is known of the decisions under way: those that declare the run finished still find
every module terminal, and what they reconcile has failed or is destroyed. -/
structure VerdictInv (S : Teardown) (s : Watched) : Prop where
  closing : ∀ k w ids, s.chain.workers[k]? = some w → w.phase = .closing ids →
    ∃ v, (k, v) ∈ s.verdicts ∧ v.ids = ids
  noted : ∀ p ∈ s.verdicts, ∃ w, s.chain.workers[p.1]? = some w ∧ w.phase = .closing p.2.ids
  declared : ∀ p ∈ s.verdicts, p.2.declared = true → AllTerminal S s.chain
  reconciled : ∀ p ∈ s.verdicts, ∀ x ∈ p.2.ids, S.inCluster x = true ∧ NoCloudFailure S s.chain ∧
    ∀ status, s.chain.statusOf x = some status → status = destroyFailed ∨ status = destroyed

private theorem workers_workerMoves (hS : S.scope = .project) {m : ModuleRow} {e : ChainEvent}
    (hk : s.workers[k]? = some w) (hst : WorkerMoves S s k w m e t) :
    ∃ w' new, t.workers = s.workers.set k w' ++ new ∧ (∀ v ∈ new, v.phase = .queued) ∧
      (∀ ids, w'.phase = .closing ids → w.phase = .closing ids ∧ e ≠ .writeOff k ∨
        e = .detect k ∧ ids = inClusterFailures S s) ∧
      ∀ ids, w.phase = .closing ids → e ≠ .writeOff k → w'.phase = .closing ids := by
  -- the steps that have nothing to do with a decision
  have hgo : ∀ {u : Chain} {w' : DestroyWorker}, u.workers = s.workers.set k w' →
      (∀ ids, w.phase ≠ .closing ids) → (∀ ids, w'.phase ≠ .closing ids) →
      ∃ w' new, u.workers = s.workers.set k w' ++ new ∧ (∀ v ∈ new, v.phase = .queued) ∧
        (∀ ids, w'.phase = .closing ids → w.phase = .closing ids ∧ e ≠ .writeOff k ∨
          e = .detect k ∧ ids = inClusterFailures S s) ∧
        ∀ ids, w.phase = .closing ids → e ≠ .writeOff k → w'.phase = .closing ids := by
    intro u w' hu hp hp'
    exact ⟨w', [], hu.trans (append_nil _).symm, forall_mem_nil _,
      fun ids h ↦ absurd h (hp' ids), fun ids h ↦ absurd h (hp ids)⟩
  cases hst with
  | refresh now l hl =>
    obtain ⟨hlt, hget⟩ := List.getElem?_eq_some_iff.mp hk
    refine ⟨w, [], ?_, forall_mem_nil _, fun ids hp ↦ Or.inl ⟨hp, nofun⟩, fun ids hp _ ↦ hp⟩
    rw [← hget, set_getElem_self, append_nil]
    rfl
  | load hp | skip hp _ | acquire _ _ _ _ hp _ | timeOut _ _ _ hp _ | looked hp
  | decide _ _ _ hp _ | pass _ _ hp _ => exact hgo rfl (by simp [hp]) nofun
  | write x seen extra l target hp hl htarget =>
    unfold finalWrite
    split
    · split
      · exact hgo rfl (by simp [hp]) nofun
      · exact hgo rfl (by simp [hp]) nofun
    · exact hgo rfl (by simp [hp]) nofun
    · exact hgo rfl (by simp [hp]) nofun
  | raise x hx hp =>
    refine hgo rfl ?_ nofun
    intro ids h
    simp [h] at hp
  | handle x seen hp =>
    refine hgo rfl (by simp [hp]) ?_
    intro ids h
    simp only [afterHandler] at h
    split at h <;> cases h
  | progress hp =>
    rw [if_neg (by rw [hS]; decide)]
    refine hgo rfl ?_ nofun
    intro ids h
    simp [h] at hp
  | dispatch d seen deps hp hrow =>
    refine ⟨{ w with phase := .trigger deps }, [⟨d, .queued, none, .queued⟩], rfl, ?_, nofun, ?_⟩
    · intro v hv
      rw [mem_singleton.mp hv]
    · intro ids h
      rw [hp] at h
      cases h
  | abort hp =>
    refine hgo rfl ?_ nofun
    intro ids h
    simp [h] at hp
  | detectStack hstack _ => cases hS.symm.trans hstack
  | detectProject _ hp =>
    refine ⟨{ w with phase := .closing (inClusterFailures S s) }, [],
      (append_nil _).symm, forall_mem_nil _, ?_, ?_⟩
    · intro ids h
      cases h
      exact Or.inr ⟨rfl, rfl⟩
    · intro ids h
      rw [hp] at h
      cases h
  | writeOff ids hp =>
    exact ⟨{ w with phase := .ended }, [], (append_nil _).symm, forall_mem_nil _, nofun,
      fun ids _ h ↦ absurd rfl h⟩

private theorem phase_firstWave (force : Bool) (s : Chain) :
    ∀ v ∈ (dispatchFirstDestroyWave S force s).workers, v ∈ s.workers ∨ v.phase = .queued := by
  have hfold : ∀ (ms : List DestroyModule) (a : Chain),
      ∀ v ∈ (ms.foldl (waveDispatch S) a).workers, v ∈ a.workers ∨ v.phase = .queued := by
    intro ms
    induction ms with
    | nil => exact fun a v hv ↦ Or.inl hv
    | cons m ms ih =>
      intro a v hv
      rcases ih _ v hv with hv | hv
      · unfold waveDispatch at hv
        repeat' split at hv
        · rw [workers_dispatch, mem_append, mem_singleton] at hv
          rcases hv with hv | rfl
          · exact Or.inl hv
          · exact Or.inr rfl
        · exact Or.inl hv
        · exact Or.inl hv
      · exact Or.inr hv
  intro v hv
  rcases hfold S.modules _ v hv with hv | hv
  · left
    split at hv
    · exact hv
    · exact hv
  · exact Or.inr hv

section Closing

variable {e : ChainEvent} {j : Nat} {ids : List Nat}

private theorem closing_of_chainStep (hS : S.scope = .project) (hst : chainStep S s e = some t)
    {w' : DestroyWorker} (hj : t.workers[j]? = some w') (hp : w'.phase = .closing ids) :
    (∃ w, s.workers[j]? = some w ∧ w.phase = .closing ids ∧ e ≠ .writeOff j ∧ e ≠ .vanish j) ∨
      e = .detect j ∧ ids = inClusterFailures S s := by
  by_cases hactor : ∃ k, e.actor = some k
  · obtain ⟨k, he⟩ := hactor
    obtain ⟨w, hk, ⟨m, hm, hst⟩ | ⟨rfl, -, rfl⟩⟩ := workerMoves_of_chainStep he hst
    · obtain ⟨wk, new, hws, hnew, hclosing, -⟩ := workers_workerMoves hS hk hst
      have hvanish : ∀ i, e ≠ .vanish i := by
        rintro i rfl
        cases hst
      rw [hws, getElem?_append] at hj
      split at hj
      · by_cases hjk : j = k
        · subst hjk
          obtain ⟨hlt, -⟩ := List.getElem?_eq_some_iff.mp hk
          rw [getElem?_set_self hlt] at hj
          cases hj
          rcases hclosing ids hp with ⟨hp, hne⟩ | hdetect
          · exact Or.inl ⟨w, hk, hp, hne, hvanish j⟩
          · exact Or.inr hdetect
        · rw [getElem?_set_ne (Ne.symm hjk)] at hj
          refine Or.inl ⟨w', hj, hp, ?_, hvanish j⟩
          rintro rfl
          exact hjk (Option.some.inj he)
      · rw [hnew w' (mem_of_getElem? hj)] at hp
        cases hp
    · by_cases hjk : j = k
      · subst hjk
        obtain ⟨hlt, -⟩ := List.getElem?_eq_some_iff.mp hk
        rw [Chain.setWorker, getElem?_set_self hlt] at hj
        cases hj
        cases hp
      · rw [Chain.setWorker, getElem?_set_ne (Ne.symm hjk)] at hj
        refine Or.inl ⟨w', hj, hp, (by simp), ?_⟩
        rintro heq
        exact hjk (ChainEvent.vanish.inj heq).symm
  · cases e with
    | firstWave force =>
      rw [chainStep, Option.ite_none_right_eq_some] at hst
      cases hst.2
      rcases phase_firstWave force s w' (mem_of_getElem? hj) with hv | hv
      · rw [hst.1] at hv
        cases hv
      · rw [hv] at hp
        cases hp
    | outside x op =>
      cases Option.some.inj hst
      exact Or.inl ⟨w', hj, hp, (by simp), (by simp)⟩
    | recover x last =>
      rw [chainStep, Option.ite_none_right_eq_some] at hst
      cases hst.2
      exact Or.inl ⟨w', hj, hp, (by simp), (by simp)⟩
    | _ => exact absurd ⟨_, rfl⟩ hactor

private theorem closing_kept (hS : S.scope = .project) (hst : chainStep S s e = some t)
    (hj : s.workers[j]? = some w) (hp : w.phase = .closing ids) (hoff : e ≠ .writeOff j)
    (hgone : e ≠ .vanish j) : ∃ w', t.workers[j]? = some w' ∧ w'.phase = .closing ids := by
  obtain ⟨hlt, -⟩ := List.getElem?_eq_some_iff.mp hj
  by_cases hactor : ∃ k, e.actor = some k
  · obtain ⟨k, he⟩ := hactor
    obtain ⟨wk, hk, ⟨m, hm, hst⟩ | ⟨rfl, -, rfl⟩⟩ := workerMoves_of_chainStep he hst
    · obtain ⟨wk', new, hws, -, -, hstay⟩ := workers_workerMoves hS hk hst
      rw [hws, getElem?_append_left (by rwa [length_set])]
      by_cases hjk : j = k
      · subst hjk
        cases hj.symm.trans hk
        exact ⟨wk', getElem?_set_self hlt, hstay ids hp hoff⟩
      · exact ⟨w, (getElem?_set_ne (Ne.symm hjk)).trans hj, hp⟩
    · have hjk : k ≠ j := by
        rintro rfl
        exact hgone rfl
      exact ⟨w, (getElem?_set_ne hjk).trans hj, hp⟩
  · cases e with
    | firstWave force =>
      rw [chainStep, Option.ite_none_right_eq_some] at hst
      rw [hst.1] at hj
      cases hj
    | outside x op =>
      cases Option.some.inj hst
      exact ⟨w, hj, hp⟩
    | recover x last =>
      rw [chainStep, Option.ite_none_right_eq_some] at hst
      cases hst.2
      exact ⟨w, hj, hp⟩
    | _ => exact absurd ⟨_, rfl⟩ hactor

end Closing

/-! ### Undisturbed runs -/

section Undisturbed

variable {a b : Watched} {e : ChainEvent}

theorem inCluster_of_mem {m : DestroyModule} (hm : m ∈ S.modules) :
    S.inCluster m.id = isInClusterModule m := by
  rw [Bool.eq_iff_iff, Teardown.inCluster, any_eq_true]
  constructor
  · rintro ⟨m', hm', hid⟩
    rw [Bool.and_eq_true, beq_iff_eq] at hid
    rw [← inj_on_of_nodup_map S.ids_nodup hm' hm hid.1]
    exact hid.2
  · intro hin
    exact ⟨m, hm, by rw [beq_self_eq_true, hin]; rfl⟩

private theorem declared_of_mem_ids {v : Verdict} {x : Nat} (hx : x ∈ v.ids) :
    v.declared = true := by
  cases v with
  | reconcile ids => rfl
  | _ => cases hx

private theorem transitional_of_recover {x : Nat} {last : Option TaskStatus}
    (hst : chainStep S s (.recover x last) = some t) :
    ∃ status, s.statusOf x = some status ∧ status.transitional = true := by
  rw [chainStep, Option.ite_none_right_eq_some, Bool.and_eq_true, Option.any_eq_true] at hst
  exact hst.1.1

private theorem VerdictInv.allTerminal_step (hS : S.scope = .project) (h : VerdictInv S a)
    (hok : Undisturbed S a (.chain e)) (hst : chainStep S a.chain e = some t) {p : Nat × Verdict}
    (hp : p ∈ a.verdicts) (hdecl : p.2.declared = true) : AllTerminal S t := by
  have hterm := h.declared p hp hdecl
  obtain ⟨w, hk, -⟩ := h.noted p hp
  have hd : ∀ k, e ≠ .commitDispatch k := by
    rintro k rfl
    rw [hok p hp] at hdecl
    cases hdecl
  intro m hm status hx
  rcases statusOf_chainStep hS hst hd hx with hkeep | rfl | ⟨rfl, -⟩ | ⟨force, rfl⟩ | ⟨last, rfl⟩
  · exact hterm m hm status hkeep
  · rfl
  · rfl
  · rw [chainStep, Option.ite_none_right_eq_some] at hst
    rw [hst.1] at hk
    cases hk
  · obtain ⟨status₀, hst₀, htrans⟩ := transitional_of_recover hst
    rw [transitional_of_terminalDestroy (hterm m hm status₀ hst₀)] at htrans
    cases htrans

private theorem VerdictInv.reconciled_step (hS : S.scope = .project) (h : VerdictInv S a)
    (hok : Undisturbed S a (.chain e)) (hst : chainStep S a.chain e = some t) {p : Nat × Verdict}
    (hp : p ∈ a.verdicts) {x : Nat} (hx : x ∈ p.2.ids) :
    S.inCluster x = true ∧ NoCloudFailure S t ∧
      ∀ status, t.statusOf x = some status → status = destroyFailed ∨ status = destroyed := by
  obtain ⟨hin, hcloud, hstatus⟩ := h.reconciled p hp x hx
  have hdecl := declared_of_mem_ids hx
  obtain ⟨w, hk, -⟩ := h.noted p hp
  have hd : ∀ k, e ≠ .commitDispatch k := by
    rintro k rfl
    rw [hok p hp] at hdecl
    cases hdecl
  have hwave : ∀ force, e ≠ .firstWave force := by
    rintro force rfl
    rw [chainStep, Option.ite_none_right_eq_some] at hst
    rw [hst.1] at hk
    cases hk
  refine ⟨hin, ?_, ?_⟩
  · intro m hm hout hfailed
    rcases statusOf_chainStep hS hst hd hfailed with hkeep | heq | ⟨-, hfails⟩ | ⟨force, rfl⟩ |
      ⟨last, rfl⟩
    · exact hcloud m hm hout hkeep
    · cases heq
    · -- the guard keeps failures inside the cluster
      obtain ⟨k, v, hk, hv, ⟨exit, seen, extra, rfl, hne⟩ | ⟨seen, rfl⟩⟩ := hfails
      · rcases (hok.resolve_left hne) v hk with hin' | hids
        · rw [hv, inCluster_of_mem hm, hout] at hin'
          cases hin'
        · rw [hids p hp] at hx
          cases hx
      · rcases hok v hk with hin' | hids
        · rw [hv, inCluster_of_mem hm, hout] at hin'
          cases hin'
        · rw [hids p hp] at hx
          cases hx
    · exact hwave force rfl
    · obtain ⟨status₀, hst₀, htrans⟩ := transitional_of_recover hst
      rw [transitional_of_terminalDestroy (h.declared p hp hdecl m hm status₀ hst₀)] at htrans
      cases htrans
  · intro status hx'
    rcases statusOf_chainStep hS hst hd hx' with hkeep | rfl | ⟨rfl, -⟩ | ⟨force, rfl⟩ | ⟨last, rfl⟩
    · exact hstatus status hkeep
    · exact Or.inr rfl
    · exact Or.inl rfl
    · exact absurd rfl (hwave force)
    · obtain ⟨status₀, hst₀, htrans⟩ := transitional_of_recover hst
      rcases hstatus status₀ hst₀ with rfl | rfl <;> cases htrans

private theorem VerdictInv.chain_step (hS : S.scope = .project) (h : VerdictInv S a)
    (hok : Undisturbed S a (.chain e)) (hst : chainStep S a.chain e = some t) :
    VerdictInv S ⟨t, Destroy.noted S a e⟩ := by
  -- a decision under way is an old one of another worker, or the one just read
  have hold : ∀ p ∈ Destroy.noted S a e, (p ∈ a.verdicts ∧ e ≠ .writeOff p.1 ∧ e ≠ .vanish p.1) ∨
      e = .detect p.1 ∧ p.2 = projectVerdict (moduleRows S a.chain) := by
    intro p hp
    cases e with
    | detect k =>
      rcases mem_cons.mp hp with rfl | hp
      · exact Or.inr ⟨rfl, rfl⟩
      · exact Or.inl ⟨hp, nofun, nofun⟩
    | writeOff k =>
      rw [Destroy.noted, mem_filter, bne_iff_ne] at hp
      exact Or.inl ⟨hp.1, fun heq ↦ hp.2 (ChainEvent.writeOff.inj heq).symm, nofun⟩
    | vanish k =>
      rw [Destroy.noted, mem_filter, bne_iff_ne] at hp
      exact Or.inl ⟨hp.1, nofun, fun heq ↦ hp.2 (ChainEvent.vanish.inj heq).symm⟩
    | _ => exact Or.inl ⟨hp, nofun, nofun⟩
  have hkept : ∀ p ∈ a.verdicts, e ≠ .writeOff p.1 → e ≠ .vanish p.1 →
      p ∈ Destroy.noted S a e := by
    intro p hp hoff hgone
    cases e with
    | detect k => exact mem_cons_of_mem _ hp
    | writeOff k =>
      rw [Destroy.noted, mem_filter, bne_iff_ne]
      exact ⟨hp, fun heq ↦ hoff (by rw [heq])⟩
    | vanish k =>
      rw [Destroy.noted, mem_filter, bne_iff_ne]
      exact ⟨hp, fun heq ↦ hgone (by rw [heq])⟩
    | _ => exact hp
  have hread : ∀ k, e = .detect k → t.statusOf = a.chain.statusOf ∧
      ∃ w, t.workers[k]? = some w ∧ w.phase = .closing (inClusterFailures S a.chain) := by
    rintro k rfl
    obtain ⟨w, hk, ⟨m, hm, hst⟩ | ⟨heq, -⟩⟩ := workerMoves_of_chainStep rfl hst
    · cases hst with
      | detectStack hstack _ => cases hS.symm.trans hstack
      | detectProject _ hp =>
        obtain ⟨hlt, -⟩ := List.getElem?_eq_some_iff.mp hk
        exact ⟨rfl, _, getElem?_set_self hlt, rfl⟩
    · cases heq
  constructor
  · intro j w ids hj hp
    rcases closing_of_chainStep hS hst hj hp with ⟨w₀, hj₀, hp₀, hoff, hgone⟩ | ⟨rfl, rfl⟩
    · obtain ⟨v, hv, hids⟩ := h.closing j w₀ ids hj₀ hp₀
      exact ⟨v, hkept (j, v) hv hoff hgone, hids⟩
    · exact ⟨_, mem_cons_self, ids_projectVerdict S a.chain⟩
  · intro p hp
    rcases hold p hp with ⟨hp, hoff, hgone⟩ | ⟨hdetect, hv⟩
    · obtain ⟨w, hk, hphase⟩ := h.noted p hp
      exact closing_kept hS hst hk hphase hoff hgone
    · rw [hv, ids_projectVerdict]
      exact (hread p.1 hdetect).2
  · intro p hp hdecl
    rcases hold p hp with ⟨hp, -, -⟩ | ⟨hdetect, hv⟩
    · exact h.allTerminal_step hS hok hst hp hdecl
    · rw [hv] at hdecl
      have hterm := allTerminal_of_declared hdecl
      intro m hm status hx
      rw [(hread p.1 hdetect).1] at hx
      exact hterm m hm status hx
  · intro p hp x hx
    rcases hold p hp with ⟨hp, -, -⟩ | ⟨hdetect, hv⟩
    · exact h.reconciled_step hS hok hst hp hx
    · rw [hv, ids_projectVerdict] at hx
      obtain ⟨hin, hfailed, hcloud⟩ := inClusterFailures_spec hx
      have hsame := (hread p.1 hdetect).1
      refine ⟨hin, ?_, ?_⟩
      · intro m hm hout
        rw [hsame]
        exact hcloud m hm hout
      · intro status hx'
        rw [hsame, hfailed] at hx'
        exact Or.inl (Option.some.inj hx').symm

private theorem ids_legacyVerdict (rows : List (DestroyModule × ModuleStatus)) :
    (legacyVerdict rows).ids = [] := by
  simp only [legacyVerdict]
  repeat' split
  all_goals rfl

private theorem VerdictInv.legacy_step (h : VerdictInv S a) (hk : a.chain.workers[k]? = some w)
    (hp : w.phase = .detect) :
    VerdictInv S ⟨a.chain.setWorker k { w with phase := .closing [] },
      (k, legacyVerdict (moduleRows S a.chain)) :: a.verdicts⟩ := by
  obtain ⟨hlt, -⟩ := List.getElem?_eq_some_iff.mp hk
  constructor
  · intro j v ids hj hv
    by_cases hjk : j = k
    · subst hjk
      rw [Chain.setWorker, getElem?_set_self hlt] at hj
      cases hj
      cases hv
      exact ⟨_, mem_cons_self, ids_legacyVerdict _⟩
    · rw [Chain.setWorker, getElem?_set_ne (Ne.symm hjk)] at hj
      obtain ⟨x, hx, hids⟩ := h.closing j v ids hj hv
      exact ⟨x, mem_cons_of_mem _ hx, hids⟩
  · intro p hp'
    rcases mem_cons.mp hp' with rfl | hp'
    · exact ⟨_, getElem?_set_self hlt, by rw [ids_legacyVerdict]⟩
    · obtain ⟨v, hv, hphase⟩ := h.noted p hp'
      have hne : k ≠ p.1 := by
        rintro rfl
        cases hk.symm.trans hv
        rw [hp] at hphase
        cases hphase
      exact ⟨v, (getElem?_set_ne hne).trans hv, hphase⟩
  · intro p hp' hdecl
    rcases mem_cons.mp hp' with rfl | hp'
    · exact allTerminal_of_declared_legacy hdecl
    · exact h.declared p hp' hdecl
  · intro p hp' x hx
    rcases mem_cons.mp hp' with rfl | hp'
    · rw [ids_legacyVerdict] at hx
      cases hx
    · exact h.reconciled p hp' x hx

private theorem VerdictInv.sound (hS : S.scope = .project) (h : VerdictInv S a) {e : WatchEvent}
    (hst : watchStep S a e = some b) : DetectionSound S a e b := by
  constructor
  · rintro k (rfl | rfl)
    · obtain ⟨t, ht, rfl⟩ := Option.map_eq_some_iff.mp hst
      obtain ⟨w, hk, ⟨m, hm, ht⟩ | ⟨heq, -⟩⟩ := workerMoves_of_chainStep rfl ht
      · cases ht with
        | detectStack hstack _ => cases hS.symm.trans hstack
        | detectProject _ _ => rfl
      · cases heq
    · obtain ⟨w, hk, hst⟩ := Option.bind_eq_some_iff.mp hst
      rw [Option.ite_none_right_eq_some] at hst
      cases hst.2
      rfl
  · rintro k rfl
    obtain ⟨t, ht, rfl⟩ := Option.map_eq_some_iff.mp hst
    obtain ⟨w, hk, ⟨m, hm, ht⟩ | ⟨heq, -⟩⟩ := workerMoves_of_chainStep rfl ht
    · cases ht with
      | writeOff ids hp =>
        obtain ⟨v, hv, rfl⟩ := h.closing k w ids hk hp
        refine ⟨v, hv, h.declared (k, v) hv, ?_⟩
        intro x hchange
        simp only [statusOf_leaveTo, statusOf_mapStatus] at hchange ⊢
        cases hx : a.chain.statusOf x with
        | none =>
          rw [hx] at hchange
          exact absurd rfl hchange
        | some status =>
          rw [hx, Option.map_some] at hchange
          by_cases hmem : x ∈ v.ids
          · obtain ⟨hin, hcloud, hstatus⟩ := h.reconciled (k, v) hv x hmem
            rcases hstatus status hx with rfl | rfl
            · exact ⟨rfl, by simp [hmem], hin, hcloud⟩
            · simp [hmem] at hchange
          · simp [hmem] at hchange
    · cases heq

private theorem VerdictInv.step (hS : S.scope = .project) (h : VerdictInv S a) {e : WatchEvent}
    (hok : Undisturbed S a e) (hst : watchStep S a e = some b) : VerdictInv S b := by
  cases e with
  | chain e =>
    obtain ⟨t, ht, rfl⟩ := Option.map_eq_some_iff.mp hst
    exact h.chain_step hS hok ht
  | legacy k =>
    obtain ⟨w, hk, hst⟩ := Option.bind_eq_some_iff.mp hst
    rw [Option.ite_none_right_eq_some] at hst
    cases hst.2
    exact h.legacy_step hk hst.1

/-- In every run of a project's destroy in which no dispatch and no failure outside the cluster
is committed while terminal detection is between its read and its commit, terminal detection is
never premature and hides no failure. -/
theorem terminalDetection_sound (hS : S.scope = .project) (rows : Nat → Option ModuleRow)
    {es : List WatchEvent}
    (hrun : Run (watchStep S) (Undisturbed S) ⟨Chain.start S rows, []⟩ es b) :
    AllSteps (watchStep S) (DetectionSound S) ⟨Chain.start S rows, []⟩ es := by
  have hstart : VerdictInv S ⟨Chain.start S rows, []⟩ :=
    ⟨fun _ _ _ hk ↦ absurd hk (by simp [Chain.start]), List.forall_mem_nil _, List.forall_mem_nil _,
      List.forall_mem_nil _⟩
  refine hrun.allSteps hstart ?_
  intro a e b h hok hst
  exact ⟨h.step hS hok hst, h.sound hS hst⟩

end Undisturbed

/-- The in-cluster module is retried and fails again, and the other cloud module's detection
reconciles it. -/
def reconciledRun : List WatchEvent :=
  [.chain (.firstWave false), .chain (.load 0), .chain (.acquire 0 30 0),
    .chain (.write 0 .success destroying [("outputs", .null)]), .chain (.progress 0),
    .chain (.test 0), .chain (.commitDispatch 0), .chain (.load 2), .chain (.acquire 2 30 0),
    .chain (.write 2 .engineFailed destroying [("deployment_error", .null)]), .chain (.load 1),
    .chain (.acquire 1 30 0), .chain (.write 1 .success destroying [("outputs", .null)]),
    .chain (.progress 1), .chain (.test 1), .chain (.detect 1), .chain (.writeOff 1)]

theorem terminalDetection_sound_reconciled :
    ∃ b, Run (watchStep retriedInCluster) (Undisturbed retriedInCluster)
        ⟨Chain.start retriedInCluster retriedRows, []⟩ reconciledRun b ∧
      b.chain.statusOf 0 = some destroyed ∧
      AllSteps (watchStep retriedInCluster) (DetectionSound retriedInCluster)
        ⟨Chain.start retriedInCluster retriedRows, []⟩ reconciledRun := by
  refine ⟨_, Run.iff_exec.mpr rfl, rfl, ?_⟩
  exact terminalDetection_sound rfl retriedRows (Run.iff_exec.mpr rfl)

/-- The other cloud module's detection reads; the trigger dispatches the in-cluster module that
it has tested before; then the detection is to commit. -/
def dispatchedUnderDetection : List WatchEvent :=
  [.chain (.firstWave false), .chain (.load 0), .chain (.acquire 0 30 0),
    .chain (.write 0 .success destroying [("outputs", .null)]), .chain (.progress 0),
    .chain (.test 0), .chain (.load 1), .chain (.acquire 1 30 0),
    .chain (.write 1 .success destroying [("outputs", .null)]), .chain (.progress 1),
    .chain (.test 1), .chain (.detect 1), .chain (.commitDispatch 0)]

/-- The in-cluster module is set from `destroying` to `destroyed` and the run is declared
finished while its task is queued. -/
theorem terminalDetection_premature :
    ¬ ∀ (S : Teardown) (rows : Nat → Option ModuleRow) (es : List WatchEvent) (b : Watched),
      S.scope = .project → Run (watchStep S) Free ⟨Chain.start S rows, []⟩ es b →
      AllSteps (watchStep S) (DetectionSound S) ⟨Chain.start S rows, []⟩ es := by
  intro h
  have hrun : ∃ a b, Run (watchStep retriedInCluster) Free
      ⟨Chain.start retriedInCluster retriedRows, []⟩ dispatchedUnderDetection a ∧
      watchStep retriedInCluster a (.chain (.writeOff 1)) = some b ∧
      a.verdicts = [(1, .reconcile [0])] ∧ a.chain.statusOf 0 = some destroying := by
    exact ⟨_, _, Run.free_iff_exec.mpr rfl, rfl, rfl, rfl⟩
  obtain ⟨a, b, hrun, hst, hverdicts, hstatus⟩ := hrun
  have hall := h retriedInCluster retriedRows
    (dispatchedUnderDetection ++ [.chain (.writeOff 1)]) b rfl
    (hrun.append (Run.single trivial hst))
  obtain ⟨-, hcommit⟩ := hrun.allSteps_last hall hst
  obtain ⟨v, hv, hterm, -⟩ := hcommit 1 rfl
  rw [hverdicts, List.mem_singleton, Prod.mk.injEq] at hv
  rw [hv.2] at hterm
  have hdone := hterm rfl ⟨0, [], some ⟨some .kubernetes, none⟩⟩ (by decide) destroying hstatus
  cases hdone

end BnkForge.Destroy
