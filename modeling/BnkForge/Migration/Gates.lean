import BnkForge.Migration.ProxyMigration

/-!
# The gates of a proxy migration

What the three gates of a migration guarantee over every sequence of calls: the verification,
the operator's confirmation of the cutover and the confirmation of the teardown
(`backend/services/proxy_migration_service.py:215–324`, `:391–543`, `:601–731`).
-/

namespace BnkForge.Migration

open Transition List

/-- The verification passed and both confirmations are recorded. -/
structure Confirmed (m : ProxyMigration) : Prop where
  verified : verifyPassed m = true
  cutover : m.cutoverConfirmedAt.isSome = true
  teardown : m.teardownConfirmedAt.isSome = true

def StepStatus.done (s : StepStatus) : Bool := s == .completed || s == .skipped

/-! ### What one round of the loop can do -/

section

variable {c : Cluster} {name : StepName} {s s' : System} {m : ProxyMigration}

structure ExecutorSpec (name : StepName) (s s' : System) (result : Except String StepResult) :
    Prop where
  steps : s'.row.steps = s.row.steps
  cutover : s'.row.cutoverConfirmedAt = s.row.cutoverConfirmedAt
  status : s'.row.status = s.row.status ∨ name = .deployBnk ∧ s'.row.status = .awaitingVerify ∨
    name = .verify ∧ s'.row.status = .awaitingCutover ∧ result = .ok .awaitingConfirm ∨
    name = .cutover ∧ s'.row.status = .awaitingTeardown
  verify : name = .verify → ∃ r, result = .ok r ∧ r ≠ .done
  issued : ∃ commands, s'.issued = s.issued ++ commands ∧ ∀ p ∈ commands,
    p.1 ≠ .deleteBnkManifest ∧ (p.1.removesOld = true → Confirmed p.2)

private theorem executorSpec_refl {result : Except String StepResult} (hname : name ≠ .verify) :
    ExecutorSpec name s s result where
  steps := rfl
  cutover := rfl
  status := .inl rfl
  verify h := absurd h hname
  issued := ⟨[], (append_nil _).symm, forall_mem_nil _⟩

private theorem executorSpec_stepDeployBnk :
    ExecutorSpec .deployBnk s (stepDeployBnk c s).1 (stepDeployBnk c s).2 := by
  have happly : ∀ p ∈ [(Command.applyBnkManifest, s.row)],
      p.1 ≠ .deleteBnkManifest ∧ (p.1.removesOld = true → Confirmed p.2) := by
    simp [Command.removesOld]
  unfold stepDeployBnk
  split
  · dsimp only
    split
    · exact ⟨rfl, rfl, .inl rfl, nofun, [_], rfl, happly⟩
    · exact ⟨rfl, rfl, .inr (.inl ⟨rfl, rfl⟩), nofun, [_], rfl, happly⟩
  · exact executorSpec_refl nofun

private theorem executorSpec_stepVerify :
    ExecutorSpec .verify s (stepVerify c s).1 (stepVerify c s).2 := by
  have hissued : ∃ commands, s.issued = s.issued ++ commands ∧ ∀ p ∈ commands,
      p.1 ≠ .deleteBnkManifest ∧ (p.1.removesOld = true → Confirmed p.2) :=
    ⟨[], (append_nil _).symm, forall_mem_nil _⟩
  unfold stepVerify
  dsimp only
  split
  · exact ⟨rfl, rfl, .inr (.inr (.inl ⟨rfl, rfl, rfl⟩)), fun _ ↦ ⟨_, rfl, nofun⟩, hissued⟩
  · exact ⟨rfl, rfl, .inl rfl, fun _ ↦ ⟨_, rfl, nofun⟩, hissued⟩

private theorem executorSpec_stepCutover :
    ExecutorSpec .cutover s (stepCutover s).1 (stepCutover s).2 := by
  unfold stepCutover
  split
  · exact executorSpec_refl nofun
  · split
    · exact executorSpec_refl nofun
    · exact ⟨rfl, rfl, .inr (.inr (.inr ⟨rfl, rfl⟩)), nofun, [], (append_nil _).symm,
        forall_mem_nil _⟩

private theorem issue_removesOld (hm : Confirmed s.row) {command : Command}
    (hold : command.removesOld = true) (result : Except String StepResult) :
    ExecutorSpec .teardownOld s (s.issue command) result where
  steps := rfl
  cutover := rfl
  status := .inl rfl
  verify := nofun
  issued := by
    refine ⟨[(command, s.row)], rfl, fun p hp ↦ ?_⟩
    obtain rfl := mem_singleton.mp hp
    refine ⟨?_, fun _ ↦ hm⟩
    rintro rfl
    cases hold

private theorem ExecutorSpec.trans {t : System} {result result' : Except String StepResult}
    (h : ExecutorSpec .teardownOld s t result) (hrow : t.row = s.row)
    (h' : ExecutorSpec .teardownOld t s' result') : ExecutorSpec .teardownOld s s' result' where
  steps := h'.steps.trans h.steps
  cutover := h'.cutover.trans h.cutover
  status := by
    rw [← hrow]
    exact h'.status
  verify := nofun
  issued := by
    obtain ⟨cs, hcs, hold⟩ := h.issued
    obtain ⟨cs', hcs', hold'⟩ := h'.issued
    refine ⟨cs ++ cs', by rw [hcs', hcs, append_assoc], fun p hp ↦ ?_⟩
    rcases mem_append.mp hp with hp | hp
    · exact hold p hp
    · exact hold' p hp

private theorem executorSpec_teardownKubectl (resources : List String) (hm : Confirmed s.row) :
    ExecutorSpec .teardownOld s (teardownKubectl s resources).1 (teardownKubectl s resources).2 := by
  induction resources generalizing s with
  | nil => exact executorSpec_refl nofun
  | cons entry rest ih =>
    unfold teardownKubectl
    split
    · exact executorSpec_refl nofun
    · exact (issue_removesOld hm rfl (.ok .done)).trans rfl (ih hm)
    · exact (issue_removesOld hm rfl (.ok .done)).trans rfl (ih hm)

private theorem executorSpec_stepTeardownOld :
    ExecutorSpec .teardownOld s (stepTeardownOld c s).1 (stepTeardownOld c s).2 := by
  unfold stepTeardownOld
  split
  · exact executorSpec_refl nofun
  next hverify =>
  split
  · exact executorSpec_refl nofun
  next hcutover =>
  split
  · exact executorSpec_refl nofun
  next hteardown =>
  have hm : Confirmed s.row :=
    ⟨by simpa using hverify, by simpa [Option.isSome_iff_ne_none] using hcutover,
      by simpa [Option.isSome_iff_ne_none] using hteardown⟩
  split
  · exact executorSpec_refl nofun
  split
  · exact issue_removesOld hm rfl _
  split
  · split
    · exact executorSpec_refl nofun
    · exact executorSpec_teardownKubectl _ hm
  · exact executorSpec_refl nofun

variable (c name s) in
theorem executorSpec_executeStep :
    ExecutorSpec name s (executeStep c name s).1 (executeStep c name s).2 := by
  cases name with
  | translate =>
    show ExecutorSpec .translate s (stepTranslate s).1 (stepTranslate s).2
    unfold stepTranslate
    split <;> exact executorSpec_refl nofun
  | deployBnk => exact executorSpec_stepDeployBnk
  | verify => exact executorSpec_stepVerify
  | cutover => exact executorSpec_stepCutover
  | teardownOld => exact executorSpec_stepTeardownOld

structure RoundSpec (name : StepName) (s s' : System) (answer : Option (Except CallError Reply)) :
    Prop where
  cutover : s'.row.cutoverConfirmedAt = s.row.cutoverConfirmedAt
  others : ∀ other, other ≠ name → s'.row.steps other = s.row.steps other
  status : s'.row.status = s.row.status ∨ s'.row.status = .failed ∨ s'.row.status = .verifyFailed ∨
    name = .deployBnk ∧ s'.row.status = .awaitingVerify ∨
    name = .verify ∧ s'.row.status = .awaitingCutover ∧
      (s'.row.steps .verify).status = .awaitingConfirm ∨
    name = .cutover ∧ s'.row.status = .awaitingTeardown
  passed : answer = none → (s'.row.steps name).status.done = true
  verify : name = .verify → (s.row.steps name).status.done = false →
    answer ≠ none ∧ (s'.row.steps name).status.done = false
  done : (s.row.steps name).status.done = true → s' = s ∧ answer = none
  awaiting : (s.row.steps name).status = .awaitingConfirm → s' = s ∧ answer ≠ none
  issued : ∃ commands, s'.issued = s.issued ++ commands ∧ ∀ p ∈ commands,
    p.1 ≠ .deleteBnkManifest ∧ (p.1.removesOld = true → Confirmed p.2)

private theorem roundSpec_done (h : (s.row.steps name).status.done = true) :
    RoundSpec name s s none where
  cutover := rfl
  others _ _ := rfl
  status := .inl rfl
  passed _ := h
  verify _ h' := by rw [h] at h'; cases h'
  done _ := ⟨rfl, rfl⟩
  awaiting h' := by rw [h'] at h; cases h
  issued := ⟨[], (append_nil _).symm, forall_mem_nil _⟩

private theorem roundSpec_refused (h : (s.row.steps name).status.done = false)
    (answer : Except CallError Reply) : RoundSpec name s s (some answer) where
  cutover := rfl
  others _ _ := rfl
  status := .inl rfl
  passed := nofun
  verify _ _ := ⟨nofun, h⟩
  done h' := by rw [h] at h'; cases h'
  awaiting _ := ⟨rfl, nofun⟩
  issued := ⟨[], (append_nil _).symm, forall_mem_nil _⟩

private theorem roundSpec_executed {answer : Option (Except CallError Reply)}
    {row : ProxyMigration} {result : Except String StepResult}
    (hopen : (s.row.steps name).status.done = false)
    (hidle : (s.row.steps name).status ≠ .awaitingConfirm)
    (hspec : ExecutorSpec name { s with row := startStep s.row name } s' result)
    (hcutover : row.cutoverConfirmedAt = s.row.cutoverConfirmedAt)
    (hothers : ∀ other, other ≠ name → row.steps other = s.row.steps other)
    (hstatus : row.status = .failed ∨ row.status = .verifyFailed ∨ row.status = s.row.status ∨
      row.status = s'.row.status ∧
        (result = .ok .awaitingConfirm → (row.steps name).status = .awaitingConfirm))
    (hpassed : answer = none → (row.steps name).status.done = true)
    (hverify : name = .verify → answer ≠ none ∧ (row.steps name).status.done = false) :
    RoundSpec name s { s' with row := row } answer := by
  refine ⟨hcutover, hothers, ?_, hpassed, fun hn _ ↦ hverify hn, fun h ↦ ?_,
    fun h ↦ absurd h hidle, hspec.issued⟩
  · rcases hstatus with h | h | h | ⟨h, hawait⟩
    · exact .inr (.inl h)
    · exact .inr (.inr (.inl h))
    · exact .inl h
    · rcases hspec.status with hs | ⟨hn, hs⟩ | ⟨hn, hs, hr⟩ | ⟨hn, hs⟩
      · exact .inl (h.trans hs)
      · exact .inr (.inr (.inr (.inl ⟨hn, h.trans hs⟩)))
      · exact .inr (.inr (.inr (.inr (.inl ⟨hn, h.trans hs, hn ▸ hawait hr⟩))))
      · exact .inr (.inr (.inr (.inr (.inr ⟨hn, h.trans hs⟩))))
  · rw [hopen] at h
    cases h

theorem steps_setStep_of_ne {other : StepName} (h : other ≠ name) (step : StepRow) :
    (m.setStep name step).steps other = m.steps other :=
  Function.update_of_ne h _ _

private theorem steps_finishStep_self (status : StepStatus) (text : Option String) :
    ((m.finishStep name status text).steps name).status = status := by
  show (Function.update m.steps name _ name).status = status
  rw [Function.update_self]

private theorem steps_finishStep_of_ne {other : StepName} (h : other ≠ name) (status : StepStatus)
    (text : Option String) : (m.finishStep name status text).steps other = m.steps other :=
  steps_setStep_of_ne h _

private theorem roundSpec_runExecutor (hopen : (s.row.steps name).status.done = false)
    (hidle : (s.row.steps name).status ≠ .awaitingConfirm) :
    RoundSpec name s (runExecutor c name s).1 (runExecutor c name s).2 := by
  have hspec := executorSpec_executeStep c name { s with row := startStep s.row name }
  have hothers : ∀ other, other ≠ name → (startStep s.row name).steps other = s.row.steps other :=
    fun other ho ↦ steps_setStep_of_ne ho _
  have hfinish : ∀ status text other, other ≠ name →
      ((executeStep c name { s with row := startStep s.row name }).1.row.finishStep name status
        text).steps other = s.row.steps other := by
    intro status text other ho
    rw [steps_finishStep_of_ne ho, hspec.steps]
    exact hothers other ho
  unfold runExecutor
  dsimp only
  split
  · refine roundSpec_executed hopen hidle hspec rfl hothers (.inr (.inr (.inl rfl))) nofun
      fun _ ↦ ⟨nofun, ?_⟩
    show (Function.update s.row.steps name _ name).status.done = false
    rw [Function.update_self]
    rfl
  · split
    · next exc hresult =>
      refine roundSpec_executed hopen hidle hspec hspec.cutover (hfinish .failed (some exc)) ?_
        nofun fun _ ↦ ⟨nofun, ?_⟩
      · cases name with
        | verify => exact .inr (.inl rfl)
        | _ => exact .inl rfl
      · show ((ProxyMigration.finishStep _ name _ _).steps name).status.done = false
        rw [steps_finishStep_self]
        rfl
    · refine roundSpec_executed hopen hidle hspec hspec.cutover (hfinish .awaitingConfirm _)
        (.inr (.inr (.inr ⟨rfl, fun _ ↦ steps_finishStep_self _ _⟩))) nofun fun _ ↦ ⟨nofun, ?_⟩
      rw [steps_finishStep_self]
      rfl
    · refine roundSpec_executed hopen hidle hspec hspec.cutover (hfinish .failed _)
        (.inr (.inl rfl)) nofun fun _ ↦ ⟨nofun, ?_⟩
      show ((ProxyMigration.finishStep _ name _ _).steps name).status.done = false
      rw [steps_finishStep_self]
      rfl
    · next hresult =>
      refine roundSpec_executed hopen hidle hspec hspec.cutover (hfinish .completed _)
        (.inr (.inr (.inr ⟨rfl, fun h ↦ ?_⟩))) (fun _ ↦ ?_) fun hn ↦ ?_
      · rw [hresult] at h
        cases h
      · rw [steps_finishStep_self]
        rfl
      · obtain ⟨r, hr, hne⟩ := hspec.verify hn
        rw [hresult] at hr
        cases hr
        exact absurd rfl hne

variable (c name s) in
theorem roundSpec_runStep : RoundSpec name s (runStep c name s).1 (runStep c name s).2 := by
  have hrun : (s.row.steps name).status.done = false →
      (s.row.steps name).status ≠ .awaitingConfirm → ∀ error : CallError,
      let round := if name.gated && !verifyPassed s.row then (s, some (.error error))
        else runExecutor c name s
      RoundSpec name s round.1 round.2 := by
    intro hopen hidle error
    dsimp only
    split
    · exact roundSpec_refused hopen _
    · exact roundSpec_runExecutor hopen hidle
  unfold runStep
  split
  · next h => exact roundSpec_done (by rw [h]; rfl)
  · next h => exact roundSpec_done (by rw [h]; rfl)
  · next h => exact roundSpec_refused (by rw [h]; rfl) _
  all_goals
    next h => exact hrun (by rw [h]; rfl) (by rw [h]; nofun) _

theorem runSteps_invariant {P : System → Prop} (hstep : ∀ name s, P s → P (runStep c name s).1)
    (hend : ∀ s, P s → P { s with row := { s.row with status := .completed } })
    (names : List StepName) (hs : P s) : P (runSteps c names s).1 := by
  induction names generalizing s with
  | nil => exact hend s hs
  | cons name rest ih =>
    have hround := hstep name s hs
    unfold runSteps
    split
    · next s' heq =>
      rw [heq] at hround
      exact ih hround
    · next s' answer heq =>
      rw [heq] at hround
      exact hround

end

/-! ### Teardown -/

/-- The old proxy was removed only in states with a passed verification and both confirmations. -/
def OldRemovedConfirmed (s : System) : Prop :=
  ∀ p ∈ s.issued, p.1.removesOld = true → Confirmed p.2

private theorem oldRemovedConfirmed_executeMigration (c : Cluster) {s : System}
    (h : OldRemovedConfirmed s) : OldRemovedConfirmed (executeMigration c s).1 := by
  refine runSteps_invariant (fun name s hs ↦ ?_) (fun s hs ↦ hs) _ h
  obtain ⟨commands, hissued, hcommands⟩ := (roundSpec_runStep c name s).issued
  intro p hp
  rw [hissued] at hp
  rcases mem_append.mp hp with hp | hp
  · exact hs p hp
  · exact (hcommands p hp).2

private theorem oldRemovedConfirmed_step {s t : System} {e : MigrationEvent}
    (h : OldRemovedConfirmed s) (hst : migrationStep s e = some t) : OldRemovedConfirmed t := by
  cases e with
  | execute c =>
    cases hst
    exact oldRemovedConfirmed_executeMigration c h
  | confirmCutover confirmedBy now =>
    cases hst
    unfold confirmCutover
    split <;> exact h
  | confirmTeardown confirmedBy now =>
    cases hst
    unfold confirmTeardown
    split <;> exact h
  | abort c by_ =>
    cases hst
    have hdelete : OldRemovedConfirmed (s.issue .deleteBnkManifest) := by
      intro p hp
      rcases mem_append.mp hp with hp | hp
      · exact h p hp
      · obtain rfl := mem_singleton.mp hp
        exact nofun
    unfold abortMigration
    dsimp only
    split
    · exact h
    split
    · exact h
    split
    · split <;> exact hdelete
    · exact h

/-- From any row, over any sequence of calls with any answers of the cluster, the old proxy is
removed only in states with a passed verification and both confirmations. -/
theorem teardown_only_confirmed (m : ProxyMigration) (es : List MigrationEvent) (t : System)
    (hrun : Run migrationStep Free ⟨m, []⟩ es t) (command : Command) (row : ProxyMigration)
    (hissued : (command, row) ∈ t.issued) (hold : command.removesOld = true) : Confirmed row := by
  have hinv : OldRemovedConfirmed t :=
    hrun.invariant (List.forall_mem_nil _) fun _ _ _ ha _ hst ↦ oldRemovedConfirmed_step ha hst
  exact hinv _ hissued hold

def verifiedRow : ProxyMigration :=
  { createMigration 1 "kind: Gateway" "forge-nginx" "ingress" (some { helmRelease := some "nginx" })
    with
    verifyResult := some { programmed := true, reachable := true, passed := true }
    status := .awaitingCutover
    steps := fun name ↦ if name.gated then {} else { status := .completed } }

/-- The operator confirms both gates and the release is uninstalled. -/
theorem teardown_only_confirmed_uninstall :
    ∃ t row, Run migrationStep Free ⟨verifiedRow, []⟩
        [.confirmCutover "ops" 1, .execute {}, .confirmTeardown "ops" 2, .execute {}] t ∧
      (Command.helmUninstall "nginx" "default", row) ∈ t.issued ∧ Confirmed row := by
  have hrun : exec migrationStep ⟨verifiedRow, []⟩
      [.confirmCutover "ops" 1, .execute {}, .confirmTeardown "ops" 2, .execute {}] = some _ := rfl
  have hfree := Run.free_iff_exec.mpr hrun
  refine ⟨_, _, hfree, List.Mem.head _, ?_⟩
  exact teardown_only_confirmed _ _ _ hfree _ _ (List.Mem.head _) rfl

end BnkForge.Migration
