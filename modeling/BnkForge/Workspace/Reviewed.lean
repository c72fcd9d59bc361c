import BnkForge.Workspace.Freshness

/-!
# The reviewed plan is the applied plan

After a successful `run_opentofu_plan` the next apply prepares the workspace again and only
then asks `plan_is_valid`, which consults `needs_reinit` over the prepared files. A source
refresh removes `.terraform/modules`, and a workspace without that directory always needs a
reinit, so the reviewed plan survives only where neither happens.
-/

namespace BnkForge.Workspace

open Transition

variable {A : Type} (S : Serializer A)

/-! ### One apply after a plan -/

/-- The steps of one apply task up to its `tofu apply`: nothing is edited, no import is
reconciled, the task is not aborted and no other task starts. -/
def Undisturbed (_ : State A) : Event A → Prop
  | .edit _ | .abort | .planStart | .applyStart _ | .runApply _ => False
  | .reconcile imports => imports = 0
  | _ => True

/-- An apply without `force_new_plan` has prepared the workspace. -/
def startApply (s : State A) : State A :=
  { s with
    files := preparePersistentWorkspace s.settings s.files
    task := some (.applyPrepared false) }

/-- The apply that follows can reach `tofu apply` with the saved plan, and it reaches it in
no other way: `used_saved_plan` is set, `plan.out` is the one saved, nothing is planned. -/
def AppliesSavedPlan (s : State A) : Prop :=
  (∃ es t, Run (step S) Undisturbed (startApply s) es t ∧ t.task = some (.applyReady true)) ∧
    ∀ es t usedSavedPlan, Run (step S) Undisturbed (startApply s) es t →
      t.task = some (.applyReady usedSavedPlan) →
        usedSavedPlan = true ∧ t.files.planOut = s.files.planOut ∧ ∀ ok, .runPlan ok ∉ es

/-- The workspace that the plan left is neither refreshed by the apply's preparation nor in
need of a reinit. -/
def SurvivesPreparation (s : State A) : Prop :=
  s.settings.sourceKind ≠ "git_catalog" ∧ s.files.tfFiles ≠ [] ∧
    needsReinit S s.settings s.files = none

/-! ### The plan check after preparation -/

/-- A workspace without `.terraform/modules` needs a reinit. -/
theorem needsReinit_of_modulesDir {c : Settings A} {w : Files A} (h : w.modulesDir = false) :
    needsReinit S c w ≠ none := by
  unfold needsReinit
  rw [h]
  split
  · nofun
  · split
    · nofun
    · split <;> nofun

theorem of_needsReinit_eq_none {c : Settings A} {w : Files A} (h : needsReinit S c w = none) :
    isInitialized w = true ∧ backendChanged S c w = false := by
  unfold needsReinit at h
  split at h
  · cases h
  · next hinit =>
    refine ⟨by simpa using hinit, ?_⟩
    by_contra hne
    rw [Bool.not_eq_false] at hne
    rw [hne] at h
    split at h
    · cases h
    · split at h
      · cases h
      · split at h
        · cases h
        · split at h <;> simp at h

theorem needsReinit_prepare_eq_none_iff {c : Settings A} {w : Files A} (hw : w.created = true) :
    needsReinit S c (preparePersistentWorkspace c w) = none ↔
      shouldRefreshSource c w = false ∧ needsReinit S c w = none := by
  have hcreated : { w with created := true } = w := by rw [← hw]
  unfold preparePersistentWorkspace refreshSource
  rw [hcreated]
  by_cases hr : shouldRefreshSource c w = true
  · rw [if_pos hr, hr]
    constructor
    · intro h
      exact absurd h (needsReinit_of_modulesDir S rfl)
    · rintro ⟨h, -⟩
      cases h
  · rw [if_neg hr, Bool.eq_false_of_not_eq_true hr]
    exact (and_iff_right rfl).symm

/-! ### Tasks run in prepared workspaces -/

/-- The workspace exists and holds a variables file. -/
def Prepared (w : Files A) : Prop := w.created = true ∧ w.tfvars.isSome = true

private theorem prepared_preparePersistentWorkspace (c : Settings A) (w : Files A) :
    Prepared (preparePersistentWorkspace c w) := by
  unfold preparePersistentWorkspace refreshSource
  split <;> exact ⟨rfl, rfl⟩

private theorem prepared_ensureInit {s : State A} (h : Prepared s.files)
    (result : Option InitFiles) (next : Position) :
    Prepared (ensureInit S s result next).files := by
  unfold ensureInit
  split
  · exact h
  · cases result <;> exact h

private theorem prepared_runPlan {s : State A} (h : Prepared s.files) (ok : Bool)
    (next : Position) : Prepared (runPlan s ok next).files := by
  cases ok <;> exact h

private theorem prepared_choosePlan {s : State A} (h : Prepared s.files) (force : Bool) :
    Prepared (choosePlan S s force).files := by
  unfold choosePlan
  split
  · exact h
  · dsimp only
    split <;> exact h

private theorem prepared_runApply {s : State A} (h : Prepared s.files) (outcome : ApplyOutcome)
    (retry : Bool) : Prepared (runApply s outcome retry).files := by
  unfold runApply
  split <;> exact h

theorem prepared_step {s t : State A} {e : Event A}
    (hinv : s.task ≠ none → Prepared s.files) (h : step S s e = some t) :
    t.task ≠ none → Prepared t.files := by
  intro ht
  have hrunning : ∀ {pos}, s.task = some pos → Prepared s.files := by
    intro pos hpos
    exact hinv (by rw [hpos]; nofun)
  unfold step at h
  split at h
  · cases h
    exact hinv ht
  · cases h
    exact absurd rfl ht
  · cases h
    exact prepared_preparePersistentWorkspace _ _
  · next r hpos =>
    cases h
    exact prepared_ensureInit S (hrunning hpos) _ _
  · next ok hpos =>
    cases h
    exact prepared_runPlan (hrunning hpos) _ _
  · cases h
    exact absurd rfl ht
  · cases h
    exact prepared_preparePersistentWorkspace _ _
  · next force hpos =>
    cases h
    exact prepared_choosePlan S (hrunning hpos) _
  · next r hpos =>
    cases h
    exact prepared_ensureInit S (hrunning hpos) _ _
  · next imports hpos =>
    cases h
    split <;> exact hrunning hpos
  · next r hpos =>
    cases h
    exact prepared_ensureInit S (hrunning hpos) _ _
  · next imports hpos =>
    cases h
    split <;> exact hrunning hpos
  · next ok hpos =>
    cases h
    exact prepared_runPlan (hrunning hpos) _ _
  · next outcome saved hpos =>
    cases h
    exact prepared_runApply (hrunning hpos) _ _
  · next r hpos =>
    cases h
    exact prepared_ensureInit S (hrunning hpos) _ _
  · next ok hpos =>
    cases h
    exact prepared_runPlan (hrunning hpos) _ _
  · next outcome hpos =>
    cases h
    exact prepared_runApply (hrunning hpos) _ _
  · cases h

private theorem ensureInit_ne_planWritten {s : State A} {result : Option InitFiles}
    {next : Position} (hnext : next ≠ .planWritten) :
    (ensureInit S s result next).task ≠ some .planWritten := by
  obtain ⟨-, -, -, htask | htask⟩ := ensureInit_spec S s result next
  · rw [htask]
    simpa using hnext
  · rw [htask]
    nofun

private theorem runPlan_ne_planWritten {s : State A} {ok : Bool} {next : Position}
    (hnext : next ≠ .planWritten) : (runPlan s ok next).task ≠ some .planWritten := by
  cases ok with
  | true => simpa [runPlan] using hnext
  | false => nofun

/-- `planWritten` is entered by a successful `tofu plan` only. -/
theorem planWritten_of_step {s t : State A} {e : Event A} (h : step S s e = some t)
    (ht : t.task = some .planWritten) :
    s.task = some .planWritten ∧ t.files = s.files ∨
      s.task = some .planInitialized ∧ t.files.planOut = s.files.tfvars := by
  unfold step at h
  split at h
  · cases h
    exact Or.inl ⟨ht, rfl⟩
  · cases h
    cases ht
  · cases h
    cases ht
  · cases h
    exact absurd ht (ensureInit_ne_planWritten S nofun)
  · next ok hpos =>
    cases h
    cases ok with
    | true => exact Or.inr ⟨hpos, rfl⟩
    | false => cases ht
  · cases h
    cases ht
  · cases h
    cases ht
  · cases h
    unfold choosePlan at ht
    split at ht <;> cases ht
  · cases h
    exact absurd ht (ensureInit_ne_planWritten S nofun)
  · cases h
    split at ht <;> cases ht
  · cases h
    exact absurd ht (ensureInit_ne_planWritten S nofun)
  · cases h
    split at ht <;> cases ht
  · cases h
    exact absurd ht (runPlan_ne_planWritten nofun)
  · cases h
    unfold runApply at ht
    split at ht <;> cases ht
  · cases h
    exact absurd ht (ensureInit_ne_planWritten S nofun)
  · cases h
    exact absurd ht (runPlan_ne_planWritten nofun)
  · cases h
    unfold runApply at ht
    split at ht <;> cases ht
  · cases h

theorem planWritten_of_run {c : Settings A} {es : List (Event A)} {s : State A}
    (hrun : Run (step S) Free (initial c) es s) (hs : s.task = some .planWritten) :
    s.files.created = true ∧ s.files.planOut.isSome = true := by
  have hinv : (s.task ≠ none → Prepared s.files) ∧
      (s.task = some .planWritten → s.files.planOut.isSome = true) := by
    refine hrun.invariant
      (P := fun s ↦ (s.task ≠ none → Prepared s.files) ∧
        (s.task = some .planWritten → s.files.planOut.isSome = true)) ?_ ?_
    · exact ⟨fun h ↦ absurd rfl h, nofun⟩
    · rintro a e b ⟨hprep, hplan⟩ - hab
      refine ⟨prepared_step S hprep hab, fun hb ↦ ?_⟩
      rcases planWritten_of_step S hab hb with ⟨ha, hfiles⟩ | ⟨ha, hfiles⟩
      · rw [hfiles]
        exact hplan ha
      · rw [hfiles]
        exact (hprep (by rw [ha]; nofun)).2
  exact ⟨(hinv.1 (by rw [hs]; nofun)).1, hinv.2 hs⟩

/-! ### The two ways of an apply -/

/-- The apply is on its way to apply the plan `p` it found. -/
def OnSavedPath (p : Option A) (s : State A) : Prop :=
  s.files.planOut = p ∧
    match s.task with
    | some (.applyPrepared force) =>
      force = false ∧ hasSavedPlan s.files = true ∧
        planInvalid S s.settings s.varsHash s.files = none
    | some .savedInit =>
      isInitialized s.files = true ∧ needsReinit S s.settings s.files = none
    | some .savedReconcile | some (.applyReady true) => True
    | _ => False

def OnNewPath (s : State A) : Prop :=
  match s.task with
  | some (.applyPrepared _) => planInvalid S s.settings s.varsHash s.files ≠ none
  | none | some .newInit | some .newReconcile | some .newPlan | some (.applyReady false) => True
  | _ => False

private theorem onSavedPath_choosePlan {p : Option A} {s : State A}
    (hp : s.files.planOut = p)
    (hvalid : planInvalid S s.settings s.varsHash s.files = none) :
    OnSavedPath S p (choosePlan S s false) := by
  obtain ⟨hplan, -, -, hreinit⟩ := (planInvalid_eq_none_iff S _ _ _).mp hvalid
  rw [choosePlan, hplan, hvalid]
  exact ⟨hp, (of_needsReinit_eq_none S hreinit).1, hreinit⟩

private theorem onNewPath_choosePlan {s : State A} {force : Bool}
    (hinvalid : planInvalid S s.settings s.varsHash s.files ≠ none) :
    OnNewPath S (choosePlan S s force) := by
  rw [choosePlan, Option.isNone_eq_false_iff.mpr (Option.ne_none_iff_isSome.mp hinvalid),
    Bool.and_false, Bool.false_and]
  trivial

theorem onSavedPath_step {p : Option A} {s t : State A} {e : Event A}
    (hinv : OnSavedPath S p s) (hok : Undisturbed s e) (h : step S s e = some t) :
    OnSavedPath S p t ∧ ∀ ok, e ≠ .runPlan ok := by
  obtain ⟨c, w, varsHash, task⟩ := s
  obtain ⟨hp, hpos⟩ := hinv
  cases task with
  | none => exact hpos.elim
  | some pos =>
    cases pos with
    | applyPrepared force =>
      obtain ⟨rfl, -, hvalid⟩ := hpos
      cases e with
      | edit | abort | planStart | applyStart | runApply => exact hok.elim
      | check =>
        cases h
        exact ⟨onSavedPath_choosePlan S hp hvalid, nofun⟩
      | _ => cases h
    | savedInit =>
      cases e with
      | edit | abort | planStart | applyStart | runApply => exact hok.elim
      | ensureInit r =>
        cases h
        rw [ensureInit_skipped S hpos.1 hpos.2]
        exact ⟨⟨hp, trivial⟩, nofun⟩
      | _ => cases h
    | savedReconcile =>
      cases e with
      | edit | abort | planStart | applyStart | runApply => exact hok.elim
      | reconcile imports =>
        cases h
        have himports : imports = 0 := hok
        rw [if_pos himports]
        exact ⟨⟨hp, trivial⟩, nofun⟩
      | _ => cases h
    | applyReady saved =>
      cases saved with
      | false => exact hpos.elim
      | true =>
        cases e with
        | edit | abort | planStart | applyStart | runApply => exact hok.elim
        | _ => cases h
    | _ => exact hpos.elim

theorem onNewPath_step {s t : State A} {e : Event A} (hinv : OnNewPath S s)
    (hok : Undisturbed s e) (h : step S s e = some t) : OnNewPath S t := by
  obtain ⟨c, w, varsHash, task⟩ := s
  have hinit : ∀ {s : State A} {r next}, (∀ t : State A, t.task = some next → OnNewPath S t) →
      OnNewPath S (ensureInit S s r next) := by
    intro s r next hnext
    obtain ⟨-, -, -, htask | htask⟩ := ensureInit_spec S s r next
    · exact hnext _ htask
    · rw [OnNewPath, htask]
      trivial
  cases task with
  | none =>
    cases e with
    | edit | abort | planStart | applyStart | runApply => exact hok.elim
    | _ => cases h
  | some pos =>
    cases pos with
    | applyPrepared force =>
      cases e with
      | edit | abort | planStart | applyStart | runApply => exact hok.elim
      | check =>
        cases h
        exact onNewPath_choosePlan S hinv
      | _ => cases h
    | newInit =>
      cases e with
      | edit | abort | planStart | applyStart | runApply => exact hok.elim
      | ensureInit r =>
        cases h
        exact hinit fun t ht ↦ by rw [OnNewPath, ht]; trivial
      | _ => cases h
    | newReconcile =>
      cases e with
      | edit | abort | planStart | applyStart | runApply => exact hok.elim
      | reconcile imports =>
        cases h
        split <;> trivial
      | _ => cases h
    | newPlan =>
      cases e with
      | edit | abort | planStart | applyStart | runApply => exact hok.elim
      | runPlan ok =>
        cases h
        cases ok <;> trivial
      | _ => cases h
    | applyReady saved =>
      cases e with
      | edit | abort | planStart | applyStart | runApply => exact hok.elim
      | _ => cases h
    | _ => exact hinv.elim

/-! ### The reviewed plan -/

theorem planInvalid_startApply_iff {s : State A} (hcreated : s.files.created = true)
    (hplan : s.files.planOut.isSome = true)
    (hhash : s.varsHash = some (computeVarsHash S s.settings)) :
    planInvalid S s.settings s.varsHash (startApply s).files = none ↔
      SurvivesPreparation S s := by
  have hsaved : hasSavedPlan (startApply s).files = true := by
    have hc := (prepared_preparePersistentWorkspace s.settings s.files).1
    rw [hasSavedPlan, startApply, planOut_preparePersistentWorkspace, hplan, hc]
    rfl
  have hvars : varsChanged S s.settings s.varsHash = false := by
    rw [hhash]
    exact bne_self_eq_false _
  have hprep := needsReinit_prepare_eq_none_iff S (c := s.settings) hcreated
  have hrefresh : shouldRefreshSource s.settings s.files = false ↔
      s.settings.sourceKind ≠ "git_catalog" ∧ s.files.tfFiles ≠ [] := by
    simp [shouldRefreshSource]
  have hsurvives : SurvivesPreparation S s ↔
      needsReinit S s.settings (startApply s).files = none := by
    rw [SurvivesPreparation, ← and_assoc, ← hrefresh]
    exact hprep.symm
  rw [planInvalid_eq_none_iff, hsurvives]
  constructor
  · rintro ⟨-, -, -, h⟩
    exact h
  · intro h
    exact ⟨hsaved, hvars, (of_needsReinit_eq_none S h).2, h⟩

/-- An apply whose check accepts the saved plan can reach its `tofu apply`. -/
theorem applyReady_of_valid {s : State A}
    (hvalid : planInvalid S s.settings s.varsHash (startApply s).files = none) :
    ∃ es t, Run (step S) Undisturbed (startApply s) es t ∧ t.task = some (.applyReady true) := by
  obtain ⟨hplan, -, -, hreinit⟩ := (planInvalid_eq_none_iff S _ _ _).mp hvalid
  have hinit := (of_needsReinit_eq_none S hreinit).1
  let checked : State A := { startApply s with task := some .savedInit }
  let ready : State A := { startApply s with task := some (.applyReady true) }
  refine ⟨[.check, .ensureInit none, .reconcile 0], ready, ?_, rfl⟩
  refine .cons (t := checked) trivial ?_ (.cons
    (t := { checked with task := some .savedReconcile }) trivial ?_ (.single rfl rfl))
  · change some (choosePlan S (startApply s) false) = some checked
    rw [choosePlan, hplan]
    change some (if (planInvalid S s.settings s.varsHash (startApply s).files).isNone && true
      then _ else _) = some checked
    rw [hvalid]
    rfl
  · change some (ensureInit S checked none .savedReconcile) = _
    rw [ensureInit_skipped S (s := checked) hinit hreinit]

theorem not_applyReady_of_invalid {s : State A}
    (hinvalid : planInvalid S s.settings s.varsHash (startApply s).files ≠ none)
    {es : List (Event A)} {t : State A} (hes : Run (step S) Undisturbed (startApply s) es t) :
    t.task ≠ some (.applyReady true) := by
  intro ht
  have hnew : OnNewPath S t :=
    hes.invariant hinvalid fun a e b ha hok hab ↦ onNewPath_step S ha hok hab
  rw [OnNewPath, ht] at hnew
  exact hnew

/-- The plan that `run_opentofu_plan` recorded is the one the next apply applies exactly
when the workspace the plan left survives that apply's preparation. -/
theorem reviewedPlan_applied_iff (c : Settings A) (es : List (Event A)) (s₀ s : State A)
    (hrun : Run (step S) Free (initial c) es s₀) (hrec : step S s₀ .recordHash = some s) :
    AppliesSavedPlan S s ↔ SurvivesPreparation S s := by
  have hpos : s₀.task = some .planWritten ∧
      s = { s₀ with varsHash := some (computeVarsHash S s₀.settings), task := none } := by
    unfold step at hrec
    split at hrec <;> simp_all
  obtain ⟨htask, rfl⟩ := hpos
  obtain ⟨hcreated, hplan⟩ := planWritten_of_run S hrun htask
  have hcheck := planInvalid_startApply_iff S (s := { s₀ with
    varsHash := some (computeVarsHash S s₀.settings), task := none }) hcreated hplan rfl
  rw [← hcheck]
  constructor
  · rintro ⟨⟨es, t, hes, ht⟩, -⟩
    by_contra hinvalid
    exact not_applyReady_of_invalid S hinvalid hes ht
  · intro hvalid
    refine ⟨applyReady_of_valid S hvalid, fun es t saved hes ht ↦ ?_⟩
    have hsaved : OnSavedPath S s₀.files.planOut (startApply { s₀ with
        varsHash := some (computeVarsHash S s₀.settings), task := none }) := by
      refine ⟨planOut_preparePersistentWorkspace _ _, rfl, ?_, hvalid⟩
      exact ((planInvalid_eq_none_iff S _ _ _).mp hvalid).1
    have hend : OnSavedPath S s₀.files.planOut t :=
      hes.invariant hsaved fun a e b ha hok hab ↦ (onSavedPath_step S ha hok hab).1
    have hevents : ∀ e ∈ es, ∀ ok, e ≠ .runPlan ok :=
      hes.forall_events hsaved fun a e b ha hok hab ↦ onSavedPath_step S ha hok hab
    obtain ⟨hp, htask⟩ := hend
    rw [ht] at htask
    refine ⟨?_, hp, fun ok hmem ↦ hevents _ hmem ok rfl⟩
    cases saved with
    | true => rfl
    | false => exact htask.elim

/-- A plan of the built-in module is applied as reviewed. -/
theorem reviewedPlan_applied_builtin :
    ∃ s, exec (step haSerializer) (initial (haSettings true)) (planThenApply.take 4) = some s ∧
      AppliesSavedPlan haSerializer s := by
  refine ⟨_, rfl, ?_⟩
  refine (reviewedPlan_applied_iff haSerializer (haSettings true) (planThenApply.take 3) _ _
    (Run.free_iff_exec.mpr rfl) rfl).mpr ?_
  exact ⟨by decide, by decide, by rfl⟩

/-- The same module from the git catalog: the apply's own source refresh discards the plan. -/
theorem reviewedPlan_discarded :
    ¬ ∀ (S : Serializer Bool) (c : Settings Bool) (es : List (Event Bool)) (s₀ s : State Bool),
      Run (step S) Free (initial c) es s₀ → step S s₀ .recordHash = some s →
        AppliesSavedPlan S s := by
  intro h
  have happlies := h haSerializer { haSettings true with sourceKind := "git_catalog" }
    (planThenApply.take 3) _ _ (Run.free_iff_exec.mpr rfl) rfl
  obtain ⟨⟨es, t, hes, ht⟩, -⟩ := happlies
  exact not_applyReady_of_invalid haSerializer (by decide) hes ht

end BnkForge.Workspace
