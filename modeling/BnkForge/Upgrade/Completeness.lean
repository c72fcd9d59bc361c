import BnkForge.Upgrade.Execution

/-!
# When a completed upgrade has executed every step

The resume test of `execute_upgrade` skips every step at or below `current_step`, which is
committed before the step runs. Progress is sound at the commits outside that window
(`Settled`), and a step lost inside it is never made up for (`Lost`).
-/

namespace BnkForge.Upgrade

open Transition List

/-! ### Steps up to a number -/

/-- The numbers of the plan's steps up to `k`, in plan order. -/
def stepsUpTo (plan : UpgradePlan) (k : Int) : List Int :=
  (plan.steps.map StepDef.step).filter (· ≤ k)

private theorem stepsUpTo_congr {plan : UpgradePlan} {j k : Int}
    (h : ∀ d ∈ plan.steps, d.step ≤ j ↔ d.step ≤ k) : stepsUpTo plan j = stepsUpTo plan k := by
  apply filter_congr
  intro x hx
  obtain ⟨d, hd, rfl⟩ := mem_map.mp hx
  exact decide_eq_decide.mpr (h d hd)

private theorem filter_le_of_increasing {xs : List Int} {k : Int} (hxs : xs.Pairwise (· < ·))
    (hk : k ∈ xs) : xs.filter (· ≤ k) = xs.filter (· ≤ k - 1) ++ [k] := by
  induction xs with
  | nil => cases hk
  | cons x xs ih =>
    have hlt := (pairwise_cons.mp hxs).1
    have htail := (pairwise_cons.mp hxs).2
    by_cases hx : x = k
    · -- every later number exceeds `k`, so both filters stop here
      subst hx
      have hnone : ∀ j ≤ x, xs.filter (· ≤ j) = [] := by
        intro j hj
        apply filter_eq_nil_iff.mpr
        intro y hy
        have := hlt y hy
        simp only [decide_eq_true_eq]
        omega
      have hx' : ¬ x ≤ x - 1 := by omega
      rw [filter_cons, filter_cons, hnone x (Int.le_refl x), hnone (x - 1) (by omega)]
      simp [hx']
    · have hmem : k ∈ xs := (mem_cons.mp hk).resolve_left (Ne.symm hx)
      have := hlt k hmem
      have h₁ : x ≤ k := by omega
      have h₂ : x ≤ k - 1 := by omega
      rw [filter_cons, filter_cons, ih htail hmem]
      simp [h₁, h₂]

/-- Executing step `d` after exactly the steps below it gives the steps up to it. -/
theorem stepsUpTo_of_mem {plan : UpgradePlan} {d : StepDef} (hd : d ∈ plan.steps) :
    stepsUpTo plan d.step = stepsUpTo plan (d.step - 1) ++ [d.step] := by
  apply filter_le_of_increasing
  · exact pairwise_map.mpr plan.increasing
  · exact mem_map_of_mem hd

/-! ### Progress outside the windows -/

/-- Every step of the plan below `k` is recorded. -/
def RecordedBelow (row : UpgradeRow) (k : Int) : Prop :=
  ∀ d ∈ row.plan.steps, d.step < k → Recorded row d.step

/-- The steps up to `current_step` are the executed ones, and they are recorded. -/
def Settled (s : State) : Prop :=
  s.executed = stepsUpTo s.row.plan s.row.currentStep ∧
    RecordedBelow s.row (s.row.currentStep + 1)

/-- The loop still has in front of it every step above `current_step`. -/
def Ahead (row : UpgradeRow) (rest : List StepDef) : Prop :=
  rest.Sublist row.plan.steps ∧ ∀ d ∈ row.plan.steps, d ∈ rest ∨ d.step ≤ row.currentStep

/-- Step `d` is the one `current_step` names, and the steps below it are recorded. -/
def AtStep (row : UpgradeRow) (d : StepDef) (rest : List StepDef) : Prop :=
  d ∈ row.plan.steps ∧ row.currentStep = d.step ∧ RecordedBelow row d.step ∧ Ahead row rest

/-- What holds along runs none of whose kills falls in a window. -/
def ProgressInv (s : State) : Prop :=
  match s.worker with
  | none =>
    s.row.status = .failed ∨ Settled s ∧
      (s.row.status = .completed → ∀ d ∈ s.row.plan.steps, d.step ≤ s.row.currentStep)
  | some .capture => Settled s ∧ s.row.status = .inProgress
  | some (.loop rest) => Settled s ∧ s.row.status = .inProgress ∧ Ahead s.row rest
  | some (.begun d rest) =>
    s.executed = stepsUpTo s.row.plan (d.step - 1) ∧ s.row.status = .inProgress ∧
      AtStep s.row d rest
  | some (.returned d _ rest) =>
    s.executed = stepsUpTo s.row.plan d.step ∧ s.row.status = .inProgress ∧ AtStep s.row d rest

private theorem progressInv_begin {s : State} {d : StepDef} {rest : List StepDef}
    (hw : s.worker = some (.loop (d :: rest))) (hlt : s.row.currentStep < d.step)
    (hinv : ProgressInv s) :
    ProgressInv { s with
      row := { s.row with currentStep := d.step }, worker := some (.begun d rest) } := by
  simp only [ProgressInv, hw] at hinv
  obtain ⟨⟨hex, hrec⟩, hst, hsub, hahead⟩ := hinv
  have hd : d ∈ s.row.plan.steps := hsub.subset mem_cons_self
  have hafter : ∀ d' ∈ rest, d.step < d'.step :=
    (pairwise_cons.mp (s.row.plan.increasing.sublist hsub)).1
  -- below the step that begins there is nothing but what was settled before
  have hbelow : ∀ d' ∈ s.row.plan.steps, d'.step < d.step → d'.step ≤ s.row.currentStep := by
    intro d' hd' hlt'
    rcases hahead d' hd' with hmem | hle
    · rcases mem_cons.mp hmem with rfl | hmem
      · omega
      · have := hafter d' hmem
        omega
    · exact hle
  refine ⟨?_, hst, hd, rfl, ?_, ?_, ?_⟩
  · rw [hex]
    apply stepsUpTo_congr
    intro d' hd'
    have := hbelow d' hd'
    constructor <;> intro h <;> omega
  · intro d' hd' hlt'
    have := hbelow d' hd' hlt'
    exact hrec d' hd' (by omega)
  · exact (sublist_cons_self d rest).trans hsub
  · intro d' hd'
    rcases hahead d' hd' with hmem | hle
    · rcases mem_cons.mp hmem with rfl | hmem
      · exact Or.inr (Int.le_refl _)
      · exact Or.inl hmem
    · right
      change d'.step ≤ d.step
      omega

private theorem progressInv_record {s : State} {d : StepDef} {detail : String}
    {rest : List StepDef} (hw : s.worker = some (.returned d detail rest))
    (hinv : ProgressInv s) :
    ProgressInv { s with
      row := { s.row with
        stepResults := s.row.stepResults ++ [resultOf d .completed detail] }
      worker := some (.loop rest) } := by
  simp only [ProgressInv, hw] at hinv
  obtain ⟨hex, hst, hd, hcur, hrec, hahead⟩ := hinv
  refine ⟨⟨?_, ?_⟩, hst, hahead⟩
  · rw [hex, ← hcur]
  · intro d' hd' hlt
    change d'.step < s.row.currentStep + 1 at hlt
    by_cases heq : d'.step = d.step
    · exact ⟨resultOf d .completed detail, by simp, heq.symm, rfl⟩
    · obtain ⟨r, hr, hstep, hdone⟩ := hrec d' hd' (by omega)
      exact ⟨r, mem_append_left _ hr, hstep, hdone⟩

theorem progressInv_step {s t : State} {e : Event} (hinv : ProgressInv s)
    (hok : KillsOutsideWindow s e) (h : step s e = some t) : ProgressInv t := by
  cases moves_of_step h with
  | start hw hs =>
    simp only [ProgressInv, hw] at hinv
    rcases hinv with hf | ⟨hset, -⟩
    · rw [hf] at hs
      rcases hs with hs | hs <;> cases hs
    · exact ⟨hset, rfl⟩
  | unsupported hw message => simp [ProgressInv, hw]
  | captured hw history =>
    simp only [ProgressInv, hw] at hinv
    obtain ⟨info, available, heq⟩ := captureRollback_eq history s.row
    rw [heq]
    exact ⟨hinv.1, hinv.2, List.Sublist.refl _, fun d hd ↦ Or.inl hd⟩
  | finish hw =>
    simp only [ProgressInv, hw] at hinv
    obtain ⟨hset, -, -, hahead⟩ := hinv
    refine Or.inr ⟨hset, fun _ d hd ↦ ?_⟩
    exact (hahead d hd).resolve_left (by simp)
  | @skip d rest hw hle =>
    simp only [ProgressInv, hw] at hinv
    obtain ⟨hset, hst, hsub, hahead⟩ := hinv
    refine ⟨hset, hst, (sublist_cons_self d rest).trans hsub, fun d' hd' ↦ ?_⟩
    rcases hahead d' hd' with hmem | hle'
    · rcases mem_cons.mp hmem with rfl | hmem
      · exact Or.inr hle
      · exact Or.inl hmem
    · exact Or.inr hle'
  | begin hw hlt => exact progressInv_begin hw hlt hinv
  | health hw pre post gate he =>
    unfold ProgressInv at hinv ⊢
    cases hs : s.worker with
    | none => simp [hs, inWindow] at hw
    | some p =>
      simp only [hs] at hinv ⊢
      cases p with
      | capture => simp [hs, inWindow] at hw
      | loop rest => simp [hs, inWindow] at hw
      | begun d rest => exact hinv
      | returned d detail rest => exact hinv
  | returned hw detail =>
    simp only [ProgressInv, hw] at hinv
    obtain ⟨hex, hst, hat⟩ := hinv
    refine ⟨?_, hst, hat⟩
    rw [hex]
    exact (stepsUpTo_of_mem hat.1).symm
  | raised hw error => exact Or.inl rfl
  | record hw => exact progressInv_record hw hinv
  | kill hw =>
    have hout := hok rfl
    unfold ProgressInv at hinv
    cases hs : s.worker with
    | none => simp [hs] at hw
    | some p =>
      cases p with
      | capture =>
        simp only [hs] at hinv
        exact Or.inr ⟨hinv.1, fun hc ↦ by simp [hinv.2] at hc⟩
      | loop rest =>
        simp only [hs] at hinv
        exact Or.inr ⟨hinv.1, fun hc ↦ by simp [hinv.2.1] at hc⟩
      | begun d rest => simp [hs, inWindow] at hout
      | returned d detail rest => simp [hs, inWindow] at hout

theorem ProgressInv.complete {s : State} (hinv : ProgressInv s)
    (hc : s.row.status = .completed) : Complete s := by
  unfold ProgressInv at hinv
  cases hs : s.worker with
  | none =>
    simp only [hs, hc, reduceCtorEq, false_or] at hinv
    obtain ⟨⟨hex, hrec⟩, hall⟩ := hinv
    have hle := hall trivial
    constructor
    · have hkeep : stepsUpTo s.row.plan s.row.currentStep = s.row.plan.steps.map StepDef.step := by
        apply filter_eq_self.mpr
        intro x hx
        obtain ⟨d, hd, rfl⟩ := mem_map.mp hx
        exact decide_eq_true (hle d hd)
      rw [hex, hkeep]
    · intro d hd
      have := hle d hd
      exact hrec d hd (by omega)
  | some p => cases p <;> simp [hs, hc] at hinv

/-! ### Steps lost in a window -/

def windowStep : Option Position → Option StepDef
  | some (.begun d _) | some (.returned d _ _) => some d
  | _ => none

/-- The steps a worker still holds, the one in its window included. -/
def remaining : Option Position → List StepDef
  | some (.loop rest) => rest
  | some (.begun d rest) | some (.returned d _ rest) => d :: rest
  | _ => []

/-- Results are filed under numbers up to `current_step`, below it while in its window. -/
structure FiledBelow (s : State) : Prop where
  ofPlan : ∀ d ∈ remaining s.worker, d ∈ s.row.plan.steps
  filed : ∀ r ∈ s.row.stepResults, r.step ≤ s.row.currentStep
  window : ∀ d, windowStep s.worker = some d →
    d.step = s.row.currentStep ∧ ∀ r ∈ s.row.stepResults, r.step < d.step

/-- Step `k` can no longer be executed by any resumed run, and it is not recorded. -/
def Lost (k : Int) (s : State) : Prop :=
  k ≤ s.row.currentStep ∧ ¬ Recorded s.row k ∧ ∀ d, windowStep s.worker = some d → d.step ≠ k

private theorem windowless {worker : Option Position} {P : StepDef → Prop}
    (h : windowStep worker = none) : ∀ d, windowStep worker = some d → P d := by
  intro d hd
  exact absurd (h.symm.trans hd) (Option.some_ne_none d).symm

theorem filedBelow_step {s t : State} {e : Event} (hinv : FiledBelow s)
    (h : step s e = some t) : FiledBelow t := by
  obtain ⟨hplan, hfiled, hwin⟩ := hinv
  cases moves_of_step h with
  | start hw hs => exact ⟨forall_mem_nil _, hfiled, windowless rfl⟩
  | unsupported hw message => exact ⟨hplan, hfiled, hwin⟩
  | captured hw history =>
    obtain ⟨info, available, heq⟩ := captureRollback_eq history s.row
    rw [heq]
    exact ⟨fun d hd ↦ hd, hfiled, windowless rfl⟩
  | finish hw => exact ⟨forall_mem_nil _, hfiled, windowless rfl⟩
  | @skip d rest hw hle =>
    rw [hw] at hplan
    exact ⟨fun d' hd' ↦ hplan d' (mem_cons_of_mem d hd'), hfiled, windowless rfl⟩
  | @begin d rest hw hlt =>
    rw [hw] at hplan
    have hbelow : ∀ r ∈ s.row.stepResults, r.step < d.step := by
      intro r hr
      have := hfiled r hr
      omega
    refine ⟨hplan, fun r hr ↦ Int.le_of_lt (hbelow r hr), fun d' hd' ↦ ?_⟩
    cases hd'
    exact ⟨rfl, hbelow⟩
  | health hw pre post gate he => exact ⟨hplan, hfiled, hwin⟩
  | returned hw detail =>
    rw [hw] at hplan hwin
    exact ⟨hplan, hfiled, hwin⟩
  | @raised d rest hw error =>
    rw [hw] at hwin
    refine ⟨forall_mem_nil _, fun r hr ↦ ?_, windowless rfl⟩
    rcases mem_append.mp hr with hr | hr
    · exact hfiled r hr
    · rw [mem_singleton.mp hr]
      exact Int.le_of_eq (hwin d rfl).1
  | @record d detail rest hw =>
    rw [hw] at hplan hwin
    refine ⟨fun d' hd' ↦ hplan d' (mem_cons_of_mem d hd'), fun r hr ↦ ?_, windowless rfl⟩
    rcases mem_append.mp hr with hr | hr
    · exact hfiled r hr
    · rw [mem_singleton.mp hr]
      exact Int.le_of_eq (hwin d rfl).1
  | kill hw => exact ⟨forall_mem_nil _, hfiled, windowless rfl⟩

theorem lost_of_kill {s t : State} (hinv : FiledBelow s) (hwin : inWindow s.worker = true)
    (h : step s .kill = some t) : ∃ d ∈ s.row.plan.steps, Lost d.step t := by
  have hd : ∃ d, windowStep s.worker = some d ∧ d ∈ remaining s.worker := by
    unfold inWindow at hwin
    split at hwin
    · next d rest hs => exact ⟨d, by rw [hs]; rfl, by rw [hs]; exact mem_cons_self⟩
    · next d detail rest hs => exact ⟨d, by rw [hs]; rfl, by rw [hs]; exact mem_cons_self⟩
    · cases hwin
  obtain ⟨d, hd, hmem⟩ := hd
  obtain ⟨hcur, hlt⟩ := hinv.window d hd
  refine ⟨d, hinv.ofPlan d hmem, ?_⟩
  have ht : t = { s with worker := none } := by
    cases moves_of_step h with
    | kill hw => rfl
    | health hw pre post gate he => exact absurd rfl he
  subst ht
  refine ⟨Int.le_of_eq hcur, ?_, windowless rfl⟩
  rintro ⟨r, hr, hstep, -⟩
  have := hlt r hr
  omega

theorem lost_step {k : Int} {s t : State} {e : Event} (hl : Lost k s)
    (h : step s e = some t) : Lost k t := by
  obtain ⟨hle, hrec, hwin⟩ := hl
  cases moves_of_step h with
  | start hw hs => exact ⟨hle, hrec, windowless rfl⟩
  | unsupported hw message => exact ⟨hle, hrec, hwin⟩
  | captured hw history =>
    obtain ⟨info, available, heq⟩ := captureRollback_eq history s.row
    rw [heq]
    exact ⟨hle, hrec, windowless rfl⟩
  | finish hw => exact ⟨hle, hrec, windowless rfl⟩
  | skip hw hle' => exact ⟨hle, hrec, windowless rfl⟩
  | @begin d rest hw hlt =>
    refine ⟨Int.le_of_lt (Int.lt_of_le_of_lt hle hlt), hrec, fun d' hd' ↦ ?_⟩
    cases hd'
    omega
  | health hw pre post gate he => exact ⟨hle, hrec, hwin⟩
  | returned hw detail =>
    rw [hw] at hwin
    exact ⟨hle, hrec, hwin⟩
  | raised hw error =>
    refine ⟨hle, ?_, windowless rfl⟩
    rintro ⟨r, hr, hstep, hdone⟩
    rcases mem_append.mp hr with hr | hr
    · exact hrec ⟨r, hr, hstep, hdone⟩
    · rw [mem_singleton.mp hr] at hdone
      cases hdone
  | @record d detail rest hw =>
    rw [hw] at hwin
    refine ⟨hle, ?_, windowless rfl⟩
    rintro ⟨r, hr, hstep, hdone⟩
    rcases mem_append.mp hr with hr | hr
    · exact hrec ⟨r, hr, hstep, hdone⟩
    · rw [mem_singleton.mp hr] at hstep
      exact hwin d rfl hstep
  | kill hw => exact ⟨hle, hrec, windowless rfl⟩

/-! ### Completed upgrades -/

section Runs

variable {plan : UpgradePlan} {installShape : String} {es : List Event} {s t : State}

private theorem plan_of_run {ok : State → Event → Prop} (h : Run step ok s es t) :
    t.row.plan = s.row.plan := by
  refine h.relates (R := fun a b ↦ b.row.plan = a.row.plan) (fun a ↦ rfl) ?_
  intro a e b c _ hab hbc
  exact hbc.trans (plan_of_step hab)

private theorem not_complete_of_lost {d : StepDef} (hd : d ∈ s.row.plan.steps)
    (hl : Lost d.step s) (h : Run step Free s es t) : ¬ Complete t := by
  have hlt : Lost d.step t := h.invariant hl fun a e b ha _ hab ↦ lost_step ha hab
  intro hc
  rw [← plan_of_run h] at hd
  exact hlt.2.1 (hc.2 d hd)

/-- A completed upgrade has executed and recorded every step exactly when its steps are
numbered from above zero and no kill fell between a step's two commits. -/
theorem completed_upgrade_complete_iff (plan : UpgradePlan) (installShape : String)
    (es : List Event) (t : State) (hrun : Run step Free (initial plan installShape) es t)
    (hc : t.row.status = .completed) :
    Complete t ↔
      (∀ d ∈ plan.steps, 0 < d.step) ∧
        Run step KillsOutsideWindow (initial plan installShape) es t := by
  constructor
  · intro hcomplete
    constructor
    · intro d hd
      by_contra hpos
      have hl : Lost d.step (initial plan installShape) := by
        refine ⟨Int.not_lt.mp hpos, ?_, windowless rfl⟩
        rintro ⟨r, hr, -⟩
        cases hr
      exact not_complete_of_lost hd hl hrun hcomplete
    · rcases hrun.guarded_or_violates KillsOutsideWindow with h | hbad
      · exact h
      · obtain ⟨es₁, e, es₂, a, b, -, h₁, hv, hab, h₂⟩ := hbad
        have hfiled : FiledBelow a :=
          h₁.invariant ⟨List.forall_mem_nil _, List.forall_mem_nil _, windowless rfl⟩
            fun a e b ha _ hab ↦ filedBelow_step ha hab
        obtain ⟨rfl, hwin⟩ : e = .kill ∧ inWindow a.worker = true := by
          simpa [KillsOutsideWindow] using hv
        obtain ⟨d, hd, hl⟩ := lost_of_kill hfiled hwin hab
        rw [← plan_of_step hab] at hd
        exact absurd hcomplete (not_complete_of_lost hd hl h₂)
  · rintro ⟨hpos, hguard⟩
    have hinit : ProgressInv (initial plan installShape) := by
      refine Or.inr ⟨⟨?_, ?_⟩, nofun⟩
      · symm
        apply List.filter_eq_nil_iff.mpr
        intro x hx
        obtain ⟨d, hd, rfl⟩ := List.mem_map.mp hx
        have := hpos d hd
        change ¬ decide (d.step ≤ 0) = true
        rw [decide_eq_true_eq]
        omega
      · intro d hd hlt
        have := hpos d hd
        change d.step < 0 + 1 at hlt
        omega
    have hinv : ProgressInv t :=
      hguard.invariant hinit fun a e b ha hok hab ↦ progressInv_step ha hok hab
    exact hinv.complete hc

end Runs

def helmOnlyPlan : UpgradePlan where
  steps := [⟨1, .helmUpgrade, "Upgrade FLO", "", none, some "f5-cne-core"⟩]
  increasing := by simp

/-- A worker killed before its first step, and a second run to the end. -/
def resumedEarly : List Event :=
  [.start, .captureRollback none, .kill, .start, .captureRollback none, .next,
    .executorReturned "ok", .recordResult, .next]

/-- A worker killed between the commit of step 1's number and the step's result. -/
def resumedInWindow : List Event :=
  [.start, .captureRollback none, .next, .kill, .start, .captureRollback none, .next, .next]

/-- A run resumed outside the windows is complete. -/
theorem completed_upgrade_complete_resumedEarly :
    ∃ t, exec step (initial helmOnlyPlan "flo") resumedEarly = some t ∧
      t.row.status = .completed ∧ Complete t := by
  refine ⟨_, rfl, rfl, ?_⟩
  refine (completed_upgrade_complete_iff helmOnlyPlan "flo" resumedEarly _
    (Run.free_iff_exec.mpr rfl) rfl).mpr ⟨by decide, Run.iff_exec.mpr rfl⟩

/-- A run resumed inside a window reaches `COMPLETED` with the step neither executed nor
recorded. -/
theorem completed_upgrade_incomplete :
    ¬ ∀ (plan : UpgradePlan) (installShape : String) (es : List Event) (t : State),
      exec step (initial plan installShape) es = some t → t.row.status = .completed →
        Complete t := by
  intro h
  have hc := (h helmOnlyPlan "flo" resumedInWindow _ rfl rfl).1
  have hnil : [(1 : Int)].Sublist [] := hc
  simp at hnil

end BnkForge.Upgrade
