import BnkForge.Migration.Gates

/-!
# What becomes of a proxy migration

A passed verification leaves its own step waiting for a confirmation, and `confirm_cutover`
resets the step after it (`backend/services/proxy_migration_service.py:291–295`, `:421–428`,
`:631–634`). `execute_migration` therefore never gets past the verification.
-/

namespace BnkForge.Migration

open Transition

/-- The run waits behind a passed verification. -/
structure Waiting (m : ProxyMigration) : Prop where
  translate : (m.steps .translate).status.done = true
  deployBnk : (m.steps .deployBnk).status.done = true
  verify : (m.steps .verify).status = .awaitingConfirm

/-- What is known of the row of a run started from a fresh plan. -/
structure Unfinished (m : ProxyMigration) : Prop where
  verify : (m.steps .verify).status.done = false
  status : m.status ≠ .completed
  awaiting : m.status = .awaitingCutover → Waiting m
  confirmed : m.cutoverConfirmedAt.isSome = true → Waiting m

/-- A status that no execution on the way to the verification makes of another. -/
def Elsewhere (status : MigrationStatus) : Prop :=
  status = .completed ∨ status = .aborted ∨ status = .rolledBack ∨ status = .awaitingCutover

section

variable {c : Cluster} {s t : System} {e : MigrationEvent} {m : ProxyMigration}

/-- The status is settled by `execute_migration` before its loop begins. -/
private theorem not_elsewhere_entered (h : m.status ≠ .awaitingCutover) :
    ¬ Elsewhere (if m.status ∈ inProgressGuard then m else { m with status := .inProgress }).status := by
  split
  · next hguard =>
    rintro (hs | hs | hs | hs)
    · rw [hs] at hguard
      exact absurd hguard (by decide)
    · rw [hs] at hguard
      exact absurd hguard (by decide)
    · rw [hs] at hguard
      exact absurd hguard (by decide)
    · exact h hs
  · rintro (hs | hs | hs | hs) <;> cases hs

private theorem not_elsewhere_round {name : StepName} {answer : Option (Except CallError Reply)}
    (h : RoundSpec name s t answer) (hname : name ≠ .verify) (hs : ¬ Elsewhere s.row.status) :
    ¬ Elsewhere t.row.status := by
  rcases h.status with ht | ht | ht | ⟨-, ht⟩ | ⟨hn, -⟩ | ⟨-, ht⟩
  · rwa [ht]
  all_goals first | exact absurd hn hname | skip
  all_goals
    rw [ht]
    rintro (h | h | h | h) <;> cases h

/-- What an execution leaves of a run that does not wait yet. -/
private structure Proceeds (s t : System) : Prop where
  cutover : t.row.cutoverConfirmedAt = s.row.cutoverConfirmedAt
  verify : (t.row.steps .verify).status.done = false
  status : Elsewhere t.row.status → t.row.status = .awaitingCutover ∧ Waiting t.row

private theorem proceeds_fromVerify (hverify : (s.row.steps .verify).status.done = false)
    (htranslate : (s.row.steps .translate).status.done = true)
    (hdeploy : (s.row.steps .deployBnk).status.done = true) (hs : ¬ Elsewhere s.row.status) :
    Proceeds s (runSteps c [.verify, .cutover, .teardownOld] s).1 := by
  have hround := roundSpec_runStep c .verify s
  obtain ⟨hanswer, hnot⟩ := hround.verify rfl hverify
  have heq : (runSteps c [.verify, .cutover, .teardownOld] s).1 = (runStep c .verify s).1 := by
    unfold runSteps
    split
    · next heq => exact absurd (by rw [heq]) hanswer
    · next heq => rw [heq]
  rw [heq]
  refine ⟨hround.cutover, hnot, fun helse ↦ ?_⟩
  rcases hround.status with ht | ht | ht | ⟨hn, -⟩ | ⟨-, ht, hawait⟩ | ⟨hn, -⟩
  · exact absurd (ht ▸ helse) hs
  · rw [ht] at helse
    rcases helse with h | h | h | h <;> cases h
  · rw [ht] at helse
    rcases helse with h | h | h | h <;> cases h
  · cases hn
  · refine ⟨ht, ?_, ?_, hawait⟩
    · rw [hround.others .translate nofun]
      exact htranslate
    · rw [hround.others .deployBnk nofun]
      exact hdeploy
  · cases hn

private theorem proceeds_runSteps {name : StepName} {rest : List StepName} (hname : name ≠ .verify)
    (hverify : (s.row.steps .verify).status.done = false) (hs : ¬ Elsewhere s.row.status)
    (hrest : ∀ t, t.row.cutoverConfirmedAt = s.row.cutoverConfirmedAt →
      (t.row.steps .verify).status.done = false → ¬ Elsewhere t.row.status →
      (t.row.steps name).status.done = true →
      (∀ other, other ≠ name → t.row.steps other = s.row.steps other) →
      Proceeds t (runSteps c rest t).1) :
    Proceeds s (runSteps c (name :: rest) s).1 := by
  have hround := roundSpec_runStep c name s
  have hstatus := not_elsewhere_round hround hname hs
  have hnot : ((runStep c name s).1.row.steps .verify).status.done = false := by
    rw [hround.others _ hname.symm]
    exact hverify
  unfold runSteps
  split
  · next t heq =>
    rw [heq] at hround hstatus hnot
    have := hrest t hround.cutover hnot hstatus (hround.passed rfl) hround.others
    exact ⟨this.cutover.trans hround.cutover, this.verify, this.status⟩
  · next t answer heq =>
    rw [heq] at hround hstatus hnot
    exact ⟨hround.cutover, hnot, fun h ↦ absurd h hstatus⟩

private theorem proceeds_executeMigration (hverify : (s.row.steps .verify).status.done = false)
    (hs : s.row.status ≠ .awaitingCutover) : Proceeds s (executeMigration c s).1 := by
  have hstart : Proceeds
      { s with
        row := if s.row.status ∈ inProgressGuard then s.row else { s.row with status := .inProgress } }
      (executeMigration c s).1 := by
    refine proceeds_runSteps nofun (by split <;> exact hverify) (not_elsewhere_entered hs) ?_
    intro t _ hverify hs htranslate _
    refine proceeds_runSteps nofun hverify hs ?_
    intro u _ hverify hs hdeploy hothers
    exact proceeds_fromVerify hverify (by rw [hothers .translate nofun]; exact htranslate) hdeploy hs
  refine ⟨hstart.cutover.trans ?_, hstart.verify, hstart.status⟩
  dsimp only
  split <;> rfl

private theorem runStep_of_done {name : StepName} (h : (s.row.steps name).status.done = true) :
    runStep c name s = (s, none) := by
  obtain ⟨h₁, h₂⟩ := (roundSpec_runStep c name s).done h
  exact Prod.ext h₁ h₂

theorem executeMigration_of_waiting (h : Waiting s.row) :
    (executeMigration c s).1 =
      { s with
        row := if s.row.status ∈ inProgressGuard then s.row
          else { s.row with status := .inProgress } } := by
  have hrow : Waiting (if s.row.status ∈ inProgressGuard then s.row
      else { s.row with status := .inProgress }) := by
    split
    · exact h
    · exact ⟨h.translate, h.deployBnk, h.verify⟩
  unfold executeMigration migrationSteps
  dsimp only
  rw [runSteps, runStep_of_done hrow.translate]
  dsimp only
  rw [runSteps, runStep_of_done hrow.deployBnk]
  dsimp only
  rw [runSteps]
  simp only [runStep, hrow.verify]

/-! ### Progress -/

private theorem unfinished_execute (h : Unfinished s.row) :
    Unfinished (executeMigration c s).1.row := by
  by_cases hwaiting : Waiting s.row
  · rw [executeMigration_of_waiting hwaiting]
    dsimp only
    split
    · exact h
    · exact ⟨h.verify, nofun, nofun, fun _ ↦ ⟨hwaiting.translate, hwaiting.deployBnk, hwaiting.verify⟩⟩
  · have hp := proceeds_executeMigration (c := c) h.verify fun hs ↦ hwaiting (h.awaiting hs)
    refine ⟨hp.verify, fun hs ↦ ?_, fun hs ↦ (hp.status (.inr (.inr (.inr hs)))).2, fun hc ↦ ?_⟩
    · have := (hp.status (.inl hs)).1
      rw [hs] at this
      cases this
    · rw [hp.cutover] at hc
      exact absurd (h.confirmed hc) hwaiting

private theorem waiting_setStep {name : StepName} (step : StepRow) (hname : name.gated = true)
    (h : Waiting m) : Waiting (m.setStep name step) := by
  have hne : ∀ other : StepName, other.gated = false → other ≠ name := by
    rintro other hother rfl
    rw [hname] at hother
    cases hother
  refine ⟨?_, ?_, ?_⟩
  · rw [steps_setStep_of_ne (hne .translate rfl)]
    exact h.translate
  · rw [steps_setStep_of_ne (hne .deployBnk rfl)]
    exact h.deployBnk
  · rw [steps_setStep_of_ne (hne .verify rfl)]
    exact h.verify

theorem unfinished_step (h : Unfinished s.row) (hst : migrationStep s e = some t) :
    Unfinished t.row := by
  cases e with
  | execute c =>
    cases hst
    exact unfinished_execute h
  | confirmCutover confirmedBy now =>
    cases hst
    unfold confirmCutover
    split
    · next hs =>
      have hw : Waiting (s.row.setStep .cutover { s.row.steps .cutover with status := .pending }) :=
        waiting_setStep _ rfl (h.awaiting hs)
      have hw' : Waiting (confirmCutover confirmedBy now s).1.row := by
        rw [confirmCutover, if_pos hs]
        exact ⟨hw.translate, hw.deployBnk, hw.verify⟩
      rw [confirmCutover, if_pos hs] at hw'
      exact ⟨by rw [hw'.verify]; rfl, nofun, nofun, fun _ ↦ hw'⟩
    · exact h
  | confirmTeardown confirmedBy now =>
    cases hst
    unfold confirmTeardown
    split
    · next hs =>
      refine ⟨?_, nofun, nofun, fun hc ↦ ?_⟩
      · have hv : (s.row.setStep .teardownOld { s.row.steps .teardownOld with
            status := .pending }).steps .verify = s.row.steps .verify :=
          steps_setStep_of_ne (by decide) _
        exact (congrArg (StepStatus.done ∘ StepRow.status) hv).trans h.verify
      · have hw : Waiting (s.row.setStep .teardownOld { s.row.steps .teardownOld with
            status := .pending }) := waiting_setStep _ rfl (h.confirmed hc)
        exact ⟨hw.translate, hw.deployBnk, hw.verify⟩
    · exact h
  | abort c by_ =>
    cases hst
    have hended : ∀ (status : MigrationStatus) (text : Option String), status = .aborted ∨
        status = .rolledBack → Unfinished { s.row with status := status, errorMessage := text } := by
      rintro status text hstatus
      refine ⟨h.verify, ?_, ?_, fun hc ↦ ?_⟩
      · rcases hstatus with rfl | rfl <;> nofun
      · rcases hstatus with rfl | rfl <;> nofun
      · exact ⟨(h.confirmed hc).translate, (h.confirmed hc).deployBnk, (h.confirmed hc).verify⟩
    unfold abortMigration
    dsimp only
    split
    · exact h
    split
    · exact hended _ _ (.inl rfl)
    split
    · split
      · exact hended _ _ (.inr rfl)
      · exact hended _ _ (.inl rfl)
    · exact hended _ _ (.inl rfl)

theorem unfinished_createMigration (id : Nat) (combinedYaml gatewayName gatewayNamespace : String)
    (teardownInfo : Option TeardownInfo) :
    Unfinished (createMigration id combinedYaml gatewayName gatewayNamespace teardownInfo) :=
  ⟨rfl, nofun, nofun, nofun⟩

/-- The cluster answers as every step hopes and the verification passes. -/
structure Cluster.Succeeds (c : Cluster) : Prop where
  applied : ∃ address, c.applied = .ok address
  programmed : ∃ reasons, c.programmed = .ok (true, reasons)
  reachable : ∃ reasons, c.reachable = .ok (true, reasons)
  found : c.found = true
  kubeconfig : c.kubeconfig = .ok ()
  dies : c.dies = none

def Cooperative (_ : System) : MigrationEvent → Prop
  | .execute c => c.Succeeds
  | .confirmCutover _ _ | .confirmTeardown _ _ => True
  | .abort _ _ => False

private theorem execute_createMigration {id : Nat} {combinedYaml gatewayName gatewayNamespace : String}
    {teardownInfo : Option TeardownInfo} (hyaml : combinedYaml ≠ "") (hname : gatewayName ≠ "")
    (hnamespace : gatewayNamespace ≠ "") (hc : c.Succeeds) :
    let start : System :=
      ⟨createMigration id combinedYaml gatewayName gatewayNamespace teardownInfo, []⟩
    (executeMigration c start).1.row.status = .awaitingCutover := by
  obtain ⟨address, happlied⟩ := hc.applied
  obtain ⟨reasons, hprogrammed⟩ := hc.programmed
  obtain ⟨more, hreachable⟩ := hc.reachable
  simp [executeMigration, migrationSteps, runSteps, runStep, runExecutor, executeStep, stepTranslate,
    stepDeployBnk, stepVerify, verifyBnkMigration, createMigration, startStep, given,
    ProxyMigration.setStep, ProxyMigration.finishStep, System.issue, inProgressGuard,
    StepName.gated, hyaml, hname, hnamespace, happlied, hprogrammed, hreachable, hc.dies]

private theorem step_of_cutoverConfirmed (hs : s.row.status = .cutoverConfirmed)
    (hwaiting : Waiting s.row) (hok : Cooperative s e) (hst : migrationStep s e = some t) : t = s := by
  cases e with
  | execute c =>
    cases hst
    rw [executeMigration_of_waiting hwaiting, if_pos (by rw [hs]; decide)]
  | confirmCutover confirmedBy now =>
    cases hst
    rw [confirmCutover, if_neg (by rw [hs]; nofun)]
  | confirmTeardown confirmedBy now =>
    cases hst
    rw [confirmTeardown, if_neg (by rw [hs]; nofun)]
  | abort c by_ => cases hok

private theorem run_of_cutoverConfirmed {es : List MigrationEvent}
    (hs : s.row.status = .cutoverConfirmed) (hwaiting : Waiting s.row)
    (hrun : Run migrationStep Cooperative s es t) : t = s := by
  refine hrun.invariant (P := (· = s)) rfl fun a e b ha hok hst ↦ ?_
  subst ha
  exact step_of_cutoverConfirmed hs hwaiting hok hst

end

/-- No sequence of calls completes a migration that starts from a fresh plan; and where every
execution succeeds and the verification passes, the run stands still from the confirmation of
the cutover on. -/
theorem migration_never_completes (id : Nat) (combinedYaml gatewayName gatewayNamespace : String)
    (teardownInfo : Option TeardownInfo) (hyaml : combinedYaml ≠ "") (hname : gatewayName ≠ "")
    (hnamespace : gatewayNamespace ≠ "") :
    let start : System :=
      ⟨createMigration id combinedYaml gatewayName gatewayNamespace teardownInfo, []⟩
    (∀ es t, Run migrationStep Free start es t →
      t.row.status ≠ .completed ∧ (t.row.steps .verify).status ≠ .completed) ∧
    ∀ c confirmedBy now, c.Succeeds → ∃ s,
      Run migrationStep Cooperative start [.execute c, .confirmCutover confirmedBy now] s ∧
      s.row.status = .cutoverConfirmed ∧ ∀ es t, Run migrationStep Cooperative s es t → t = s := by
  intro start
  have hfresh : Unfinished start.row := unfinished_createMigration _ _ _ _ _
  refine ⟨fun es t hrun ↦ ?_, fun c confirmedBy now hc ↦ ?_⟩
  · have h : Unfinished t.row :=
      hrun.invariant (P := fun s ↦ Unfinished s.row) hfresh fun _ _ _ ha _ hst ↦
        unfinished_step ha hst
    refine ⟨h.status, fun hv ↦ ?_⟩
    have := h.verify
    rw [hv] at this
    cases this
  · have hstatus : (executeMigration c start).1.row.status = .awaitingCutover :=
      execute_createMigration hyaml hname hnamespace hc
    have hexecuted : Unfinished (executeMigration c start).1.row :=
      unfinished_step (e := .execute c) hfresh rfl
    have hconfirmed := unfinished_step (e := .confirmCutover confirmedBy now) hexecuted rfl
    rw [confirmCutover, if_pos hstatus] at hconfirmed
    have hrun : Run migrationStep Cooperative start [.execute c, .confirmCutover confirmedBy now]
        (confirmCutover confirmedBy now (executeMigration c start).1).1 :=
      .cons hc rfl (.single trivial rfl)
    rw [confirmCutover, if_pos hstatus] at hrun
    exact ⟨_, hrun, rfl, fun es t ↦ run_of_cutoverConfirmed rfl (hconfirmed.confirmed rfl)⟩

/-- A plan with all that the steps need. -/
def nginxMigration : ProxyMigration :=
  createMigration 1 "kind: Gateway" "forge-nginx" "ingress" (some { helmRelease := some "nginx" })

/-- On a cluster that answers well the plan gets as far as the confirmed cutover. -/
theorem migration_never_completes_nginx :
    (∀ es t, Run migrationStep Free ⟨nginxMigration, []⟩ es t →
      t.row.status ≠ .completed ∧ (t.row.steps .verify).status ≠ .completed) ∧
    ∃ s, Run migrationStep Cooperative ⟨nginxMigration, []⟩
        [.execute {}, .confirmCutover "ops" 1] s ∧
      s.row.status = .cutoverConfirmed ∧ ∀ es t, Run migrationStep Cooperative s es t → t = s := by
  have h := migration_never_completes 1 "kind: Gateway" "forge-nginx" "ingress"
    (some { helmRelease := some "nginx" }) (by decide) (by decide) (by decide)
  exact ⟨h.1, h.2 {} "ops" 1 ⟨⟨_, rfl⟩, ⟨_, rfl⟩, ⟨_, rfl⟩, rfl, rfl, rfl⟩⟩

/-- No run in which all goes well completes the plan. -/
theorem nginx_plan_not_completed :
    ¬ ∃ es t, Run migrationStep Cooperative ⟨nginxMigration, []⟩ es t ∧
      t.row.status = .completed ∧ ∀ name, (t.row.steps name).status = .completed := by
  rintro ⟨es, t, hrun, hs, -⟩
  have h : Unfinished t.row :=
    hrun.invariant (P := fun s ↦ Unfinished s.row) (unfinished_createMigration _ _ _ _ _)
      fun _ _ _ ha _ hst ↦ unfinished_step ha hst
  exact h.status hs

/-! ### Abort -/

def KeepsLivePath (a : System) (e : MigrationEvent) (b : System) : Prop :=
  match e with
  | .abort _ _ => a.row.cutoverConfirmedAt.isSome = true → b.issued = a.issued
  | .execute _ =>
    a.row.status = .aborted ∨ a.row.status = .rolledBack ∨ a.row.status = .completed →
      b.row.status = a.row.status
  | .confirmCutover _ _ | .confirmTeardown _ _ => True

def NotRevived (a : System) : MigrationEvent → Prop
  | .execute _ => a.row.status ≠ .aborted ∧ a.row.status ≠ .rolledBack
  | .abort _ _ | .confirmCutover _ _ | .confirmTeardown _ _ => True

/-- What is known of the row while no ended run is executed again. -/
structure Guarded (m : ProxyMigration) : Prop extends Unfinished m where
  live : m.cutoverConfirmedAt.isSome = true → m.status = .cutoverConfirmed ∨ m.status = .aborted

section

variable {c : Cluster} {s t : System} {e : MigrationEvent}

private theorem status_executeMigration (h : Unfinished s.row) :
    (executeMigration c s).1.row.status ≠ .aborted ∧
      (executeMigration c s).1.row.status ≠ .rolledBack := by
  by_cases hwaiting : Waiting s.row
  · rw [executeMigration_of_waiting hwaiting]
    dsimp only
    split
    · next hguard =>
      constructor
      · intro hs
        rw [hs] at hguard
        exact absurd hguard (by decide)
      · intro hs
        rw [hs] at hguard
        exact absurd hguard (by decide)
    · exact ⟨nofun, nofun⟩
  · have hp := proceeds_executeMigration (c := c) h.verify fun hs ↦ hwaiting (h.awaiting hs)
    constructor
    · intro hs
      have := (hp.status (.inr (.inl hs))).1
      rw [hs] at this
      cases this
    · intro hs
      have := (hp.status (.inr (.inr (.inl hs)))).1
      rw [hs] at this
      cases this

private theorem live_execute (h : Guarded s.row) (hok : NotRevived s (.execute c))
    (hc : (executeMigration c s).1.row.cutoverConfirmedAt.isSome = true) :
    (executeMigration c s).1.row.status = .cutoverConfirmed := by
  by_cases hwaiting : Waiting s.row
  · rw [executeMigration_of_waiting hwaiting] at hc ⊢
    have hset : s.row.cutoverConfirmedAt.isSome = true := by
      dsimp only at hc
      split at hc <;> exact hc
    have hs : s.row.status = .cutoverConfirmed := (h.live hset).resolve_right hok.1
    rw [if_pos (by rw [hs]; decide)]
    exact hs
  · have hp := proceeds_executeMigration (c := c) h.verify fun hs ↦ hwaiting (h.awaiting hs)
    rw [hp.cutover] at hc
    exact absurd (h.confirmed hc) hwaiting

private theorem abort_spec (h : Guarded s.row) (by_ : String) :
    KeepsLivePath s (.abort c by_) (abortMigration c by_ s).1 ∧
      ((abortMigration c by_ s).1.row.cutoverConfirmedAt.isSome = true →
        (abortMigration c by_ s).1.row.status = .cutoverConfirmed ∨
          (abortMigration c by_ s).1.row.status = .aborted) := by
  unfold abortMigration KeepsLivePath
  dsimp only
  split
  · exact ⟨fun _ ↦ rfl, h.live⟩
  next hterminal =>
  split
  · exact ⟨fun _ ↦ rfl, fun _ ↦ .inr rfl⟩
  next hpost =>
  -- neither terminal nor behind the cutover, so the cutover is not confirmed
  have hnone : s.row.cutoverConfirmedAt.isSome ≠ true := by
    intro hc
    rcases h.live hc with hs | hs
    · exact hpost (by rw [hs]; decide)
    · exact hterminal (by rw [hs]; decide)
  split
  · split <;> exact ⟨fun hc ↦ absurd hc hnone, fun hc ↦ absurd hc hnone⟩
  · exact ⟨fun _ ↦ rfl, fun hc ↦ absurd hc hnone⟩

private theorem guarded_step (h : Guarded s.row) (hok : NotRevived s e)
    (hst : migrationStep s e = some t) : Guarded t.row ∧ KeepsLivePath s e t := by
  have hunfinished := unfinished_step h.toUnfinished hst
  cases e with
  | execute c =>
    cases hst
    refine ⟨⟨hunfinished, fun hc ↦ .inl (live_execute h hok hc)⟩, ?_⟩
    rintro (hs | hs | hs)
    · exact absurd hs hok.1
    · exact absurd hs hok.2
    · exact absurd hs h.status
  | confirmCutover confirmedBy now =>
    refine ⟨⟨hunfinished, ?_⟩, trivial⟩
    cases hst
    unfold confirmCutover
    split
    · exact fun _ ↦ .inl rfl
    · exact h.live
  | confirmTeardown confirmedBy now =>
    refine ⟨⟨hunfinished, ?_⟩, trivial⟩
    cases hst
    unfold confirmTeardown
    split
    · next hs =>
      intro hc
      rcases h.live hc with hs' | hs' <;> · rw [hs] at hs'; cases hs'
    · exact h.live
  | abort c by_ =>
    cases hst
    obtain ⟨hkeeps, hlive⟩ := abort_spec (c := c) h by_
    exact ⟨⟨hunfinished, hlive⟩, hkeeps⟩

end

/-- In the runs of a fresh plan no abort after the confirmed cutover deletes the new resources and
no execution moves an ended run exactly where no aborted or rolled back run is executed. -/
theorem abort_keeps_live_path_iff (id : Nat) (combinedYaml gatewayName gatewayNamespace : String)
    (teardownInfo : Option TeardownInfo) (es : List MigrationEvent) (t : System)
    (hrun : Run migrationStep Free
      ⟨createMigration id combinedYaml gatewayName gatewayNamespace teardownInfo, []⟩ es t) :
    AllSteps migrationStep KeepsLivePath
        ⟨createMigration id combinedYaml gatewayName gatewayNamespace teardownInfo, []⟩ es ↔
      Run migrationStep NotRevived
        ⟨createMigration id combinedYaml gatewayName gatewayNamespace teardownInfo, []⟩ es t := by
  refine hrun.allSteps_iff_guarded (I := fun s ↦ Guarded s.row)
    ⟨unfinished_createMigration _ _ _ _ _, nofun⟩ (fun a e b ↦ guarded_step) ?_
  intro a e b ha hst hkeeps
  cases e with
  | execute c =>
    cases hst
    obtain ⟨haborted, hrolled⟩ := status_executeMigration (c := c) ha.toUnfinished
    constructor
    · intro hs
      exact haborted ((hkeeps (.inl hs)).trans hs)
    · intro hs
      exact hrolled ((hkeeps (.inr (.inl hs))).trans hs)
  | confirmCutover | confirmTeardown | abort => trivial

/-- The cutover is confirmed and the run aborted. -/
theorem abort_keeps_live_path_nginx :
    ∃ t, Run migrationStep Free ⟨nginxMigration, []⟩
        [.execute {}, .confirmCutover "ops" 1, .abort {} "ops"] t ∧
      AllSteps migrationStep KeepsLivePath ⟨nginxMigration, []⟩
        [.execute {}, .confirmCutover "ops" 1, .abort {} "ops"] := by
  have hrun : exec migrationStep ⟨nginxMigration, []⟩
      [.execute {}, .confirmCutover "ops" 1, .abort {} "ops"] = some _ := rfl
  refine ⟨_, Run.free_iff_exec.mpr hrun, (abort_keeps_live_path_iff 1 "kind: Gateway" "forge-nginx"
    "ingress" (some { helmRelease := some "nginx" }) _ _ (Run.free_iff_exec.mpr hrun)).mpr ?_⟩
  exact .cons ⟨nofun, nofun⟩ rfl (.cons trivial rfl (.single trivial rfl))

/-- Executed once more after the abort, the run can be aborted again, which deletes the resources
that carry the traffic. -/
theorem revived_run_deletes_live_path :
    ¬ ∀ (es : List MigrationEvent) (t : System), Run migrationStep Free ⟨nginxMigration, []⟩ es t →
      AllSteps migrationStep KeepsLivePath ⟨nginxMigration, []⟩ es := by
  intro h
  have hrun : exec migrationStep ⟨nginxMigration, []⟩
      [.execute {}, .confirmCutover "ops" 1, .abort {} "ops", .execute {}] = some _ := rfl
  have hfree := Run.free_iff_exec.mpr hrun
  have hkeeps : KeepsLivePath _ (.abort {} "ops") _ :=
    hfree.allSteps_last (h _ _ (hfree.append (.single trivial rfl))) rfl
  exact absurd (congrArg List.length (hkeeps rfl)) (by decide)

end BnkForge.Migration
