import BnkForge.Destroy.Chain

/-!
# Finalization of a stack destroy

Two hooks at the end of each task move the status of a stack: `update_stack_progress` and,
after it, terminal detection, which deletes the module rows only while the stack is
`DESTROYING` (`backend/tasks/_tofu_helpers.py:625–679`). The progress hook of the last task
already sets `DESTROYED` (`backend/services/stack_deployment_service.py:1464–1481`), so the
rows are deleted only where another worker's detection comes between the last final write and
every later progress hook.
-/

namespace BnkForge.Destroy

open ModuleStatus Lock BnkForge.Module Transition List

variable (S : Teardown)

def Finalized (s : Chain) : Prop :=
  s.stackStatus = .destroyed ∧ s.deployedModules = [] ∧ ∀ x ∈ S.modules, s.rows x.id = none

/-- The hook takes the stack out of `DESTROYING` and leaves the rows: the progress hook on a
module with a failed status or on destroyed modules only, or detection on a failed destroy. -/
def spoils (s : Chain) : ChainEvent → Bool
  | .progress _ => (statuses S s).any failedInName || (statuses S s).all (· == destroyed)
  | .detect _ => (statuses S s).all terminalDestroy && (statuses S s).any (· == destroyFailed)
  | _ => false

/-- Some terminal detection runs when no module has infrastructure left, and no hook before it
has spoilt the run. -/
def FinalizedInTime (s : Chain) (es : List ChainEvent) : Prop :=
  ∃ es₁ k es₂ a, es = es₁ ++ .detect k :: es₂ ∧
    Run (chainStep S) (fun s e ↦ spoils S s e = false) s es₁ a ∧
    (statuses S a).all ModuleStatus.noInfra = true

def Complete (s : Chain) : Prop :=
  (∀ w ∈ s.workers, w.phase = .ended ∧ w.task = .completed) ∧
    ∀ x ∈ S.modules, ∃ w ∈ s.workers, w.module = x.id

/-! ### What a step does to the stack -/

/-- The states agree on the stack row and on which module rows exist. -/
structure SameStack (s t : Chain) : Prop where
  status : t.stackStatus = s.stackStatus
  deployed : t.deployedModules = s.deployedModules
  rows : ∀ x, (t.rows x).isSome = (s.rows x).isSome

def stackEffect (s : Chain) : ChainEvent → Chain
  | .progress _ => updateStackProgress S s
  | .detect _ => runTerminalDetectionStack s
  | _ => s

section Frame

variable {S} {s t u : Chain}

private theorem SameStack.trans (h₁ : SameStack s t) (h₂ : SameStack t u) : SameStack s u :=
  ⟨h₂.status.trans h₁.status, h₂.deployed.trans h₁.deployed,
    fun x ↦ (h₂.rows x).trans (h₁.rows x)⟩

private theorem sameStack_refl (s : Chain) : SameStack s s := ⟨rfl, rfl, fun _ ↦ rfl⟩

private theorem sameStack_onRow (s : Chain) (x : Nat) (f : ModuleRow → ModuleRow) :
    SameStack s (s.onRow x f) := by
  refine ⟨rfl, rfl, fun y ↦ ?_⟩
  simp only [Chain.onRow]
  split <;> simp

private theorem sameStack_mapStatus (s : Chain) (f : Nat → ModuleStatus → ModuleStatus) :
    SameStack s (s.mapStatus f) :=
  ⟨rfl, rfl, fun y ↦ by simp [Chain.mapStatus]⟩

private theorem sameStack_setWorker (s : Chain) (k : Nat) (w : DestroyWorker) :
    SameStack s (s.setWorker k w) := ⟨rfl, rfl, fun _ ↦ rfl⟩

private theorem sameStack_leaveTo (s : Chain) (k : Nat) (w : DestroyWorker)
    (phase : DestroyPhase) : SameStack s (leaveTo s k w phase) :=
  (sameStack_onRow s w.module _).trans (sameStack_setWorker _ k _)

private theorem sameStack_dispatch (s : Chain) (seen : ModuleStatus) (x : Nat) :
    SameStack s (s.dispatch seen x) := by
  have h := sameStack_onRow s x (ormWrite (some seen) destroying)
  exact ⟨h.status, h.deployed, h.rows⟩

theorem sameStack_foldl_waveDispatch (ms : List DestroyModule) (s : Chain) :
    SameStack s (ms.foldl (waveDispatch S) s) := by
  induction ms generalizing s with
  | nil => exact sameStack_refl s
  | cons m ms ih =>
    have hwave : SameStack s (waveDispatch S s m) := by
      unfold waveDispatch
      repeat' split
      · exact sameStack_dispatch s _ _
      · exact sameStack_refl s
      · exact sameStack_refl s
    exact hwave.trans (ih _)

private theorem sameStack_firstWave (s : Chain) (force : Bool) :
    SameStack s (dispatchFirstDestroyWave S force s) := by
  have hpre : SameStack s (if force && S.scope == .project then forceDestroy S s else s) := by
    split
    · exact sameStack_mapStatus s _
    · exact sameStack_refl s
  exact hpre.trans (sameStack_foldl_waveDispatch S.modules _)

private theorem sameStack_workerMoves (hS : S.scope = .stack) {k : Nat} {w : DestroyWorker}
    {m : ModuleRow} {e : ChainEvent} (hst : WorkerMoves S s k w m e t) :
    SameStack (stackEffect S s e) t := by
  cases hst with
  | load _ | timeOut _ _ _ _ _ | looked _ | decide _ _ _ _ _ | pass _ _ _ _ | abort _ =>
    exact sameStack_setWorker s _ _
  | skip _ _ | acquire _ _ _ _ _ _ | handle _ _ _ =>
    exact (sameStack_onRow s _ _).trans (sameStack_setWorker _ _ _)
  | refresh _ _ _ => exact sameStack_onRow s _ _
  | write x seen extra l target hp hl htarget =>
    unfold finalWrite
    simp only
    split
    · split
      · exact (sameStack_onRow s _ _).trans (sameStack_leaveTo _ _ _ _)
      · exact (sameStack_onRow s _ _).trans (sameStack_setWorker _ _ _)
    · exact sameStack_leaveTo s _ _ _
    · exact sameStack_leaveTo s _ _ _
  | raise _ _ _ => exact sameStack_leaveTo s _ _ _
  | progress hp =>
    rw [if_pos hS]
    exact sameStack_setWorker _ _ _
  | dispatch _ _ _ _ _ => exact (sameStack_setWorker s _ _).trans (sameStack_dispatch _ _ _)
  | detectStack _ _ => exact sameStack_leaveTo _ _ _ _
  | detectProject hproject _ => cases hS.symm.trans hproject
  | writeOff _ _ => exact (sameStack_mapStatus s _).trans (sameStack_leaveTo _ _ _ _)

theorem sameStack_chainStep (hS : S.scope = .stack) {e : ChainEvent}
    (hst : chainStep S s e = some t) : SameStack (stackEffect S s e) t := by
  cases hact : e.actor with
  | none =>
    cases e with
    | firstWave force =>
      simp only [chainStep, Option.ite_none_right_eq_some] at hst
      cases hst.2
      exact sameStack_firstWave s force
    | outside x op =>
      cases hst
      exact sameStack_onRow s _ _
    | recover x lastTask =>
      simp only [chainStep, Option.ite_none_right_eq_some] at hst
      cases hst.2
      exact sameStack_onRow s _ _
    | _ => cases hact
  | some k =>
    obtain ⟨w, -, ⟨m, -, hst⟩ | ⟨rfl, -, rfl⟩⟩ := workerMoves_of_chainStep hact hst
    · exact sameStack_workerMoves hS hst
    · exact sameStack_setWorker s _ _

end Frame

/-! ### The three states of the stack -/

/-- Every module row exists. -/
def Present (s : Chain) : Prop := ∀ x ∈ S.modules, (s.rows x.id).isSome = true

/-- The stack is being destroyed and nothing is finalized. -/
structure Open (s : Chain) : Prop where
  status : s.stackStatus = .destroying
  deployed : s.deployedModules = S.ids
  present : Present S s

/-- The stack has left `DESTROYING` with its module rows. -/
structure Missed (s : Chain) : Prop where
  status : s.stackStatus ≠ .destroying
  present : Present S s

section States

variable {S} {s t : Chain} {e : ChainEvent}

private theorem scopeStatuses_of_open (h : Open S s) : scopeStatuses s = statuses S s := by
  rw [scopeStatuses, h.deployed, Teardown.ids, filterMap_map]
  rfl

private theorem statuses_ne_nil (hne : S.modules ≠ []) (h : Present S s) : statuses S s ≠ [] := by
  obtain ⟨x, hx⟩ := exists_mem_of_ne_nil _ hne
  obtain ⟨m, hm⟩ := Option.isSome_iff_exists.mp (h x hx)
  have hmem : m.status ∈ statuses S s :=
    mem_filterMap.mpr ⟨x, hx, by rw [Chain.statusOf, hm, Option.map_some]⟩
  exact ne_nil_of_mem hmem

private theorem statuses_of_gone (h : ∀ x ∈ S.modules, s.rows x.id = none) :
    statuses S s = [] := by
  rw [statuses, filterMap_eq_nil_iff]
  intro x hx
  rw [Chain.statusOf, h x hx]
  rfl

private theorem not_finalized_of_present (hne : S.modules ≠ []) (h : Present S s) :
    ¬ Finalized S s := by
  intro hf
  obtain ⟨x, hx⟩ := exists_mem_of_ne_nil _ hne
  have hsome := h x hx
  rw [hf.2.2 x hx] at hsome
  cases hsome

private theorem Present.of_same (h : Present S s) (hsame : SameStack s t) : Present S t := by
  intro x hx
  rw [hsame.rows]
  exact h x hx

private theorem finalized_step (hS : S.scope = .stack) (h : Finalized S s)
    (hst : chainStep S s e = some t) : Finalized S t := by
  have hsame := sameStack_chainStep hS hst
  obtain ⟨hstatus, hdep, hrows⟩ := h
  have heffect : stackEffect S s e = s := by
    unfold stackEffect
    split
    · have hsame : stackProgress (statuses S s) s.stackStatus s.deployedModules =
          (s.stackStatus, s.deployedModules) := by
        simp [stackProgress, statuses_of_gone hrows, hstatus]
      simp only [updateStackProgress, hsame]
    · simp [runTerminalDetectionStack, hstatus]
    · rfl
  rw [heffect] at hsame
  refine ⟨hsame.status.trans hstatus, hsame.deployed.trans hdep, ?_⟩
  intro x hx
  have hx := hrows x hx
  rw [← Option.not_isSome_iff_eq_none, ← hsame.rows, Option.not_isSome_iff_eq_none] at hx
  exact hx

/-- The progress hook never sets `DESTROYING`. -/
private theorem stackProgress_ne_destroying {all : List ModuleStatus}
    {stack : StackInstanceStatus} (h : stack ≠ .destroying) (deployed : List Nat) :
    (stackProgress all stack deployed).1 ≠ .destroying := by
  unfold stackProgress deployProgress
  repeat' split
  all_goals simp_all

/-- A stack that has left `DESTROYING` keeps its rows. -/
private theorem missed_step (hS : S.scope = .stack) (h : Missed S s)
    (hst : chainStep S s e = some t) : Missed S t := by
  have hsame := sameStack_chainStep hS hst
  have heffect : Missed S (stackEffect S s e) := by
    unfold stackEffect
    split
    · exact ⟨stackProgress_ne_destroying h.status _, h.present⟩
    · rw [runTerminalDetectionStack, if_pos (Or.inl h.status)]
      exact h
    · exact h
  exact ⟨hsame.status ▸ heffect.status, heffect.present.of_same hsame⟩

/-- A hook that spoils the run takes the stack out of `DESTROYING` for good. -/
private theorem missed_of_spoils (hS : S.scope = .stack) (hne : S.modules ≠ []) (h : Open S s)
    (hspoils : spoils S s e = true) (hst : chainStep S s e = some t) : Missed S t := by
  have hsame := sameStack_chainStep hS hst
  have heffect : Missed S (stackEffect S s e) := by
    cases e with
    | progress k =>
      rw [spoils, Bool.or_eq_true] at hspoils
      refine ⟨?_, h.present⟩
      simp only [stackEffect, updateStackProgress, stackProgress, h.status,
        if_neg (statuses_ne_nil hne h.present), if_true]
      rcases hspoils with hfailed | hall
      · rw [if_pos hfailed]
        nofun
      · rw [if_pos hall]
        split <;> nofun
    | detect k =>
      rw [spoils, Bool.and_eq_true] at hspoils
      have hguard : ¬ (s.stackStatus ≠ .destroying ∨ s.deployedModules = []) := by
        simp [h.status, h.deployed, Teardown.ids, hne]
      simp only [stackEffect, runTerminalDetectionStack, if_neg hguard, scopeStatuses_of_open h,
        hspoils.1, hspoils.2, Bool.not_true, Bool.false_eq_true, if_false, if_true]
      exact ⟨nofun, h.present⟩
    | _ => cases hspoils
  exact ⟨hsame.status ▸ heffect.status, heffect.present.of_same hsame⟩

private theorem finalized_of_detect (hS : S.scope = .stack) (hne : S.modules ≠ [])
    (h : Open S s) (hall : (statuses S s).all ModuleStatus.noInfra = true) {k : Nat}
    (hst : chainStep S s (.detect k) = some t) : Finalized S t := by
  have hsame := sameStack_chainStep hS hst
  have hguard : ¬ (s.stackStatus ≠ .destroying ∨ s.deployedModules = []) := by
    simp [h.status, h.deployed, Teardown.ids, hne]
  have hterm : (statuses S s).all terminalDestroy = true := by
    rw [all_eq_true] at hall ⊢
    intro status hmem
    exact (terminalDestroy_iff status).mpr (Or.inl (hall status hmem))
  have hfailed : (statuses S s).any (· == destroyFailed) = false := by
    rw [any_eq_false]
    intro status hmem heq
    have hno := all_eq_true.mp hall status hmem
    rw [beq_iff_eq] at heq
    rw [heq] at hno
    cases hno
  have heffect : stackEffect S s (.detect k) = finalizeDestroy s := by
    simp only [stackEffect, runTerminalDetectionStack, if_neg hguard, scopeStatuses_of_open h,
      hterm, hfailed, Bool.not_true, Bool.false_eq_true, if_false]
  rw [heffect] at hsame
  refine ⟨hsame.status, hsame.deployed, ?_⟩
  intro x hx
  have hid : x.id ∈ s.deployedModules := by
    rw [h.deployed]
    exact mem_map.mpr ⟨x, hx, rfl⟩
  rw [← Option.not_isSome_iff_eq_none, hsame.rows]
  simp [finalizeDestroy, hid]

private theorem open_step (hS : S.scope = .stack) (hne : S.modules ≠ []) (h : Open S s)
    (hspoils : spoils S s e = false)
    (hdetect : ∀ k, e = .detect k → (statuses S s).all ModuleStatus.noInfra = false)
    (hst : chainStep S s e = some t) : Open S t := by
  have hsame := sameStack_chainStep hS hst
  have heffect : stackEffect S s e = s := by
    cases e with
    | progress k =>
      rw [spoils, Bool.or_eq_false_iff] at hspoils
      have hkeep : stackProgress (statuses S s) s.stackStatus s.deployedModules =
          (s.stackStatus, s.deployedModules) := by
        simp only [stackProgress, h.status, if_neg (statuses_ne_nil hne h.present), hspoils.1,
          hspoils.2, if_true, Bool.false_eq_true, if_false]
      simp only [stackEffect, updateStackProgress, hkeep]
    | detect k =>
      have hinfra := hdetect k rfl
      have hguard : ¬ (s.stackStatus ≠ .destroying ∨ s.deployedModules = []) := by
        simp [h.status, h.deployed, Teardown.ids, hne]
      have hterm : (statuses S s).all terminalDestroy = false := by
        by_contra hterm
        rw [Bool.not_eq_false] at hterm
        rw [spoils, hterm, Bool.true_and, any_eq_false] at hspoils
        rw [all_eq_false] at hinfra
        obtain ⟨status, hmem, hno⟩ := hinfra
        rcases (terminalDestroy_iff status).mp (all_eq_true.mp hterm status hmem) with hi | hi
        · exact hno hi
        · exact hspoils status hmem (by simpa using hi)
      simp only [stackEffect, runTerminalDetectionStack, if_neg hguard, scopeStatuses_of_open h,
        hterm, Bool.not_false, if_true]
    | _ => rfl
  rw [heffect] at hsame
  exact ⟨hsame.status.trans h.status, hsame.deployed.trans h.deployed, h.present.of_same hsame⟩

end States

/-! ### Runs -/

variable {S}

private theorem finalized_iff_of_open (hS : S.scope = .stack) (hne : S.modules ≠ []) {s t : Chain}
    {es : List ChainEvent} (hrun : Run (chainStep S) Free s es t) (h : Open S s) :
    Finalized S t ↔ FinalizedInTime S s es := by
  induction hrun with
  | nil s =>
    refine iff_of_false (not_finalized_of_present hne h.present) ?_
    rintro ⟨es₁, k, es₂, a, hes, -⟩
    simp at hes
  | @cons s b t e es _ hst hrun ih =>
    by_cases hspoils : spoils S s e = true
    · have hmissed := hrun.invariant (missed_of_spoils hS hne h hspoils hst)
        fun _ _ _ hm _ hst' ↦ missed_step hS hm hst'
      refine iff_of_false (not_finalized_of_present hne hmissed.present) ?_
      rintro ⟨es₁, k, es₂, a, hes, hguarded, hall⟩
      cases hguarded with
      | nil _ =>
        cases hes
        rw [spoils, Bool.and_eq_true, any_eq_true] at hspoils
        obtain ⟨-, status, hmem, heq⟩ := hspoils
        have hno := all_eq_true.mp hall status hmem
        rw [beq_iff_eq] at heq
        rw [heq] at hno
        cases hno
      | cons hok _ _ =>
        cases hes
        rw [hspoils] at hok
        cases hok
    · rw [Bool.not_eq_true] at hspoils
      by_cases hdetect : ∃ k, e = .detect k ∧ (statuses S s).all ModuleStatus.noInfra = true
      · obtain ⟨k, rfl, hall⟩ := hdetect
        have hfinal := hrun.invariant (finalized_of_detect hS hne h hall hst)
          fun _ _ _ hf _ hst' ↦ finalized_step hS hf hst'
        exact iff_of_true hfinal ⟨[], k, es, s, rfl, Run.nil s, hall⟩
      · have hopen : Open S b := by
          refine open_step hS hne h hspoils ?_ hst
          intro k hk
          by_contra hall
          exact hdetect ⟨k, hk, by simpa using hall⟩
        rw [ih hopen]
        constructor
        · rintro ⟨es₁, k, es₂, a, rfl, hguarded, hall⟩
          exact ⟨e :: es₁, k, es₂, a, rfl, Run.cons hspoils hst hguarded, hall⟩
        · rintro ⟨es₁, k, es₂, a, hes, hguarded, hall⟩
          cases hguarded with
          | nil _ =>
            cases hes
            exact absurd ⟨k, rfl, hall⟩ hdetect
          | cons _ hst' hguarded =>
            cases hes
            cases hst.symm.trans hst'
            exact ⟨_, k, es₂, a, rfl, hguarded, hall⟩

/-- In every destroy run of a stack, whatever the order of its tasks and hooks, the stack ends
finalized exactly when some terminal detection ran with no infrastructure left and before any
hook that spoils the run. -/
theorem stackDestroy_finalized_iff (hS : S.scope = .stack) (hne : S.modules ≠ [])
    {rows : Nat → Option ModuleRow} (hrows : ∀ x ∈ S.modules, (rows x.id).isSome = true)
    {es : List ChainEvent} {t : Chain} (hrun : Run (chainStep S) Free (Chain.start S rows) es t) :
    Finalized S t ↔ FinalizedInTime S (Chain.start S rows) es :=
  finalized_iff_of_open hS hne hrun ⟨rfl, rfl, hrows⟩

def twoModules : Teardown :=
  ⟨.stack, [⟨0, [], none⟩, ⟨1, [], none⟩], by decide, ⟨fun _ ↦ 0, by decide⟩⟩

/-- The first task's detection runs after the second task's final write and before its hooks. -/
def overlapping : List ChainEvent :=
  [.firstWave false, .load 0, .load 1, .acquire 0 30 0, .acquire 1 30 0,
    .write 0 .success destroying [("outputs", .null)], .progress 0, .test 0,
    .write 1 .success destroying [("outputs", .null)], .detect 0, .vanish 1]

/-- The stack is finalized. -/
theorem stackDestroy_finalized_overlapping :
    ∃ t, exec (chainStep twoModules) (Chain.start twoModules (appliedRows 2)) overlapping =
        some t ∧ Complete twoModules t ∧ Finalized twoModules t := by
  have hrun : ∃ t, Run (chainStep twoModules) Free (Chain.start twoModules (appliedRows 2))
      overlapping t ∧ Complete twoModules t := by
    refine ⟨_, Run.free_iff_exec.mpr rfl, ?_, ?_⟩
    · decide
    · decide
  obtain ⟨t, hrun, hcomplete⟩ := hrun
  refine ⟨t, Run.free_iff_exec.mp hrun, hcomplete, ?_⟩
  refine (stackDestroy_finalized_iff rfl (by decide) (by decide) hrun).mpr ?_
  exact ⟨overlapping.take 9, 0, [.vanish 1], _, rfl, Run.iff_exec.mpr rfl, rfl⟩

def oneModule : Teardown := ⟨.stack, [⟨0, [], none⟩], by decide, ⟨fun _ ↦ 0, by decide⟩⟩

/-- The only module is destroyed: the progress hook of its task sets `DESTROYED`, and the
detection that follows deletes nothing. -/
def alone : List ChainEvent :=
  [.firstWave false, .load 0, .acquire 0 30 0, .write 0 .success destroying [("outputs", .null)],
    .progress 0, .test 0, .detect 0]

/-- The module's row outlives the stack's destroy. -/
theorem stackDestroy_not_finalized :
    ¬ ∀ (S : Teardown) (rows : Nat → Option ModuleRow) (es : List ChainEvent) (t : Chain),
      S.scope = .stack → S.modules ≠ [] → (∀ x ∈ S.modules, (rows x.id).isSome = true) →
        Run (chainStep S) Free (Chain.start S rows) es t → Complete S t → Finalized S t := by
  intro h
  have hrun : ∃ t, Run (chainStep oneModule) Free (Chain.start oneModule (appliedRows 1)) alone t ∧
      Complete oneModule t ∧ (t.rows 0).isSome = true := by
    refine ⟨_, Run.free_iff_exec.mpr rfl, ⟨?_, ?_⟩, rfl⟩
    · decide
    · decide
  obtain ⟨t, hrun, hcomplete, hrow⟩ := hrun
  have hfinal := h oneModule (appliedRows 1) alone t rfl (by decide) (by decide) hrun hcomplete
  rw [hfinal.2.2 ⟨0, [], none⟩ List.mem_cons_self] at hrow
  cases hrow

end BnkForge.Destroy
