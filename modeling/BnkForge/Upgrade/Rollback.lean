import Mathlib.Logic.Function.Basic
import BnkForge.Upgrade.Execution

/-!
# The revision an upgrade is rolled back to

`backend/services/bnk_upgrade_execution_service.py:110–143` (capture) and `:604–707`
(`rollback`), over the runs of `execute_upgrade`. The cluster's release histories are part
of the state: `get_history` lists them in order and a Helm upgrade appends one revision
above all others, whether the executor then returns, raises or is killed. The `chart` check
of a Helm step can only raise before Helm runs and is one of the ways an executor raises.
-/

namespace BnkForge.Upgrade

open Transition List

/-! ### Releases and their histories -/

structure Release where
  name : String
  space : String
  deriving DecidableEq, Repr

def releaseOf (d : StepDef) : Option Release :=
  match d.releaseNamespace with
  | none => none
  | some space => if space = "" then none else some ⟨d.releaseName.getD "flo", space⟩

def floRelease (plan : List StepDef) : Option Release :=
  (plan.find? fun d ↦ d.action == .helmUpgrade).bind releaseOf

/-- The upgrade, the release histories of its cluster, the revisions the upgrade created,
and whether the Helm step that runs now has created its own. -/
structure HelmState where
  upgrade : State
  revisions : Release → List Nat
  created : List (Release × Nat)
  appended : Bool

inductive HelmEvent
  /-- Any event of the upgrade but the capture, which reads the cluster. -/
  | run (e : Event)
  /-- The run captures rollback info; `get_history` answered or raised. -/
  | capture (answered : Bool)
  /-- The running Helm step's upgrade appends a revision. -/
  | helmUpgrade (revision : Nat)
  deriving DecidableEq, Repr

/-- What `get_history` says of the release to capture. -/
def HelmState.history (s : HelmState) (answered : Bool) : Option (List (Option Nat)) :=
  if answered then
    (floRelease s.upgrade.row.plan.steps).map fun rel ↦ (s.revisions rel).map some
  else none

def HelmState.helmPending (s : HelmState) : Bool :=
  match s.upgrade.worker with
  | some (.begun d _) => d.action = .helmUpgrade && !s.appended
  | _ => false

/-- Events that only the upgrade's own record knows of. -/
def isCapture : Event → Bool
  | .captureRollback _ => true
  | _ => false

def isReturn : Event → Bool
  | .executorReturned _ => true
  | _ => false

/-- Append `r` to the history of `rel`. -/
def HelmState.append (s : HelmState) (rel : Release) (r : Nat) : HelmState :=
  { s with
    revisions := Function.update s.revisions rel (s.revisions rel ++ [r])
    created := s.created ++ [(rel, r)]
    appended := true }

/-- One event of an upgrade and its cluster, `none` when it cannot happen. A Helm step
returns only after its upgrade appended a revision, and each step appends at most one. -/
def helmStep (s : HelmState) : HelmEvent → Option HelmState
  | .run e =>
    if isCapture e ∨ (isReturn e ∧ s.helmPending) then none
    else
      (step s.upgrade e).map fun u ↦
        { s with upgrade := u, appended := s.appended && e != .next }
  | .capture answered =>
    (step s.upgrade (.captureRollback (s.history answered))).map fun u ↦
      { s with upgrade := u }
  | .helmUpgrade r =>
    match s.upgrade.worker with
    | some (.begun d _) =>
      match releaseOf d with
      | some rel =>
        if d.action = .helmUpgrade ∧ s.appended = false ∧ s.revisions rel ≠ [] ∧
            ∀ q ∈ s.revisions rel, q < r then
          some (s.append rel r)
        else none
      | none => none
    | _ => none

/-- A ready upgrade on a cluster with these release histories. -/
def HelmState.initial (plan : UpgradePlan) (installShape : String)
    (revisions : Release → List Nat) : HelmState :=
  ⟨Upgrade.initial plan installShape, revisions, [], false⟩

/-! ### `rollback` -/

def UpgradeStatus.value : UpgradeStatus → String
  | .planning => "planning"
  | .ready => "ready"
  | .inProgress => "in_progress"
  | .healthCheck => "health_check"
  | .completed => "completed"
  | .failed => "failed"
  | .cancelled => "cancelled"
  | .rollingBack => "rolling_back"
  | .rolledBack => "rolled_back"

/-- The errors of `rollback`. -/
inductive RollbackError
  | notAvailable
  | wrongStatus (status : UpgradeStatus)
  | missingNamespace
  | helm (error : String)
  deriving DecidableEq, Repr

def RollbackError.message : RollbackError → String
  | .notAvailable => "No rollback available for this upgrade"
  | .wrongStatus status => "Cannot rollback from status '" ++ status.value ++ "'"
  | .missingNamespace =>
    "Rollback info is missing 'flo_namespace'. " ++
      "Cannot rollback without knowing the FLO release namespace."
  | .helm error => error

/-- What `rollback` hands to `helm rollback`. -/
structure RollbackRequest where
  release : Release
  revision : Option Nat
  deriving DecidableEq, Repr

/-- The checks of `rollback`, in order, up to the call of `helm rollback`. -/
def rollbackRequest (row : UpgradeRow) : Except RollbackError RollbackRequest :=
  if row.rollbackAvailable = false then .error .notAvailable
  else if row.status ≠ .failed ∧ row.status ≠ .inProgress ∧ row.status ≠ .healthCheck then
    .error (.wrongStatus row.status)
  else
    match row.rollbackInfo with
    | none => .error .missingNamespace
    | some info =>
      if info.floNamespace = "" then .error .missingNamespace
      else .ok ⟨⟨info.floReleaseName, info.floNamespace⟩, info.floRevision⟩

/-- `rollback` with its writes: `helm` stands for `helm rollback` and the scan after it, which
give the health to store or raise. -/
def rollback (helm : RollbackRequest → Except String String) (row : UpgradeRow) :
    UpgradeRow × Except RollbackError RollbackRequest :=
  match rollbackRequest row with
  | .error .missingNamespace => ({ row with status := .rollingBack }, .error .missingNamespace)
  | .error e => (row, .error e)
  | .ok req =>
    match helm req with
    | .ok health => ({ row with status := .rolledBack, postHealth := some health }, .ok req)
    | .error e =>
      ({ row with status := .failed, errorMessage := some ("Rollback failed: " ++ e) },
        .error (.helm e))

theorem rollbackInfo_of_request {row : UpgradeRow} {req : RollbackRequest}
    (h : rollbackRequest row = .ok req) :
    row.rollbackInfo = some ⟨req.revision, req.release.name, req.release.space⟩ := by
  unfold rollbackRequest at h
  split at h
  · cases h
  · split at h
    · cases h
    · split at h
      · cases h
      · next info hinfo =>
        split at h
        · cases h
        · cases h
          exact hinfo

/-- What `rollback` restores is the request its checks make. -/
theorem rollback_restores {helm : RollbackRequest → Except String String} {row : UpgradeRow}
    {req : RollbackRequest} (h : (rollback helm row).2 = .ok req) :
    rollbackRequest row = .ok req := by
  unfold rollback at h
  split at h
  · cases h
  · cases h
  · next req' hreq =>
    split at h
    · cases h
      exact hreq
    · cases h

/-! ### What one event can do -/

/-- The outcomes of `helmStep`. -/
inductive HelmMoves (s : HelmState) : HelmEvent → HelmState → Prop
  | run {e : Event} {u : State} (he : isCapture e = false) (hu : step s.upgrade e = some u)
      (appended : Bool) : HelmMoves s (.run e) { s with upgrade := u, appended := appended }
  | capture {answered : Bool} {u : State}
      (hu : step s.upgrade (.captureRollback (s.history answered)) = some u) :
      HelmMoves s (.capture answered) { s with upgrade := u }
  | helmUpgrade (rel : Release) {r : Nat} (hr : ∀ q ∈ s.revisions rel, q < r) :
      HelmMoves s (.helmUpgrade r) (s.append rel r)

/-- `helmStep` does nothing but the moves. -/
theorem moves_of_helmStep {s t : HelmState} {e : HelmEvent} (h : helmStep s e = some t) :
    HelmMoves s e t := by
  cases e with
  | run e =>
    rw [helmStep] at h
    split at h
    · cases h
    · next hc =>
      obtain ⟨u, hu, rfl⟩ := Option.map_eq_some_iff.mp h
      have he : isCapture e = false := by
        rw [not_or] at hc
        exact Bool.eq_false_iff.mpr hc.1
      exact .run he hu _
  | capture answered =>
    obtain ⟨u, hu, rfl⟩ := Option.map_eq_some_iff.mp h
    exact .capture hu
  | helmUpgrade r =>
    rw [helmStep] at h
    split at h
    · split at h
      · next rel _ =>
        split at h
        · next hr =>
          cases h
          exact .helmUpgrade rel hr.2.2.2
        · cases h
      · cases h
    · cases h

theorem plan_of_helmStep {s t : HelmState} {e : HelmEvent} (h : helmStep s e = some t) :
    t.upgrade.row.plan = s.upgrade.row.plan := by
  cases moves_of_helmStep h with
  | run he hu appended => exact plan_of_step hu
  | capture hu => exact plan_of_step hu
  | helmUpgrade rel hr => rfl

theorem rollbackInfo_of_step {s t : State} {e : Event} (he : isCapture e = false)
    (h : step s e = some t) : t.row.rollbackInfo = s.row.rollbackInfo := by
  cases moves_of_step h with
  | captured hw history => cases he
  | _ => rfl

theorem rollbackInfoOf_eq (plan : List StepDef) (history : Option (List (Option Nat))) :
    rollbackInfoOf plan history =
      (floRelease plan).bind fun rel ↦ (history.bind List.getLast?).map fun revision ↦
        ⟨revision, rel.name, rel.space⟩ := by
  unfold rollbackInfoOf floRelease
  cases plan.find? fun d ↦ d.action == .helmUpgrade with
  | none => rfl
  | some d =>
    cases hspace : d.releaseNamespace with
    | none => simp [releaseOf, hspace]
    | some space =>
      by_cases hempty : space = ""
      · simp [releaseOf, hspace, hempty]
      · cases history with
        | none => simp [releaseOf, hspace, hempty]
        | some revisions =>
          cases hlast : revisions.getLast? with
          | none => simp [releaseOf, hspace, hempty, hlast]
          | some revision => simp [releaseOf, hspace, hempty, hlast]

private theorem row_of_capture {s u : State} {history : Option (List (Option Nat))}
    (h : step s (.captureRollback history) = some u) :
    u.row = captureRollback history s.row := by
  rw [step] at h
  split at h
  · cases h
    rfl
  · cases h

theorem rollbackInfo_of_capture {s : HelmState} {u : State} {answered : Bool}
    (h : step s.upgrade (.captureRollback (s.history answered)) = some u) :
    u.row.rollbackInfo = s.upgrade.row.rollbackInfo ∨
      answered = true ∧ ∃ rel r, floRelease s.upgrade.row.plan.steps = some rel ∧
        (s.revisions rel).getLast? = some r ∧
        u.row.rollbackInfo = some ⟨some r, rel.name, rel.space⟩ := by
  rw [row_of_capture h, captureRollback, rollbackInfoOf_eq]
  cases answered with
  | false => simp [HelmState.history]
  | true =>
    cases hrel : floRelease s.upgrade.row.plan.steps with
    | none => simp
    | some rel =>
      cases hlast : (s.revisions rel).getLast? with
      | none => simp [HelmState.history, hrel, getLast?_map, hlast]
      | some r => simp [HelmState.history, hrel, getLast?_map, hlast]

/-! ### Histories and captures along a run -/

section Runs

variable {plan : UpgradePlan} {revs : Release → List Nat}

/-- The revisions the upgrade created of a release, oldest first. -/
def createdOf (s : HelmState) (rel : Release) : List Nat :=
  (s.created.filter fun c ↦ c.1 = rel).map Prod.snd

theorem mem_createdOf {s : HelmState} {rel : Release} {r : Nat} :
    r ∈ createdOf s rel ↔ (rel, r) ∈ s.created := by
  simp [createdOf]

/-- Every history is the one before the upgrade followed by what the upgrade created, and
what it created is above what was there. -/
structure HistoryInv (plan : UpgradePlan) (revs : Release → List Nat) (s : HelmState) :
    Prop where
  plan : s.upgrade.row.plan = plan
  revisions : ∀ rel, s.revisions rel = revs rel ++ createdOf s rel
  above : ∀ rel, ∀ r ∈ createdOf s rel, ∀ q ∈ revs rel, q < r

private theorem createdOf_append (s : HelmState) (rel other : Release) (r : Nat) :
    createdOf (s.append rel r) other =
      createdOf s other ++ if rel = other then [r] else [] := by
  by_cases hrel : rel = other
  · simp [createdOf, HelmState.append, filter_append, hrel]
  · simp [createdOf, HelmState.append, filter_append, hrel]

private theorem HistoryInv.append {s : HelmState} {rel : Release} {r : Nat}
    (h : HistoryInv plan revs s) (hr : ∀ q ∈ s.revisions rel, q < r) :
    HistoryInv plan revs (s.append rel r) := by
  constructor
  · exact h.plan
  · intro other
    rw [createdOf_append]
    by_cases hrel : rel = other
    · subst hrel
      simp [HelmState.append, h.revisions rel]
    · simp [HelmState.append, Function.update_of_ne (Ne.symm hrel), h.revisions other, hrel]
  · intro other q hq p hp
    rw [createdOf_append] at hq
    by_cases hrel : rel = other
    · subst hrel
      rw [if_pos rfl, mem_append, mem_singleton] at hq
      rcases hq with hq | rfl
      · exact h.above rel q hq p hp
      · apply hr
        rw [h.revisions rel]
        exact mem_append_left _ hp
    · rw [if_neg hrel, append_nil] at hq
      exact h.above other q hq p hp

theorem historyInv_step {s t : HelmState} {e : HelmEvent} (h : HistoryInv plan revs s)
    (hst : helmStep s e = some t) : HistoryInv plan revs t := by
  have hplan : t.upgrade.row.plan = plan := (plan_of_helmStep hst).trans h.plan
  cases moves_of_helmStep hst with
  | run he hu appended => exact ⟨hplan, h.revisions, h.above⟩
  | capture hu => exact ⟨hplan, h.revisions, h.above⟩
  | helmUpgrade rel hr => exact h.append hr

/-- A capture that `get_history` answers finds no revision of the upgrade's own in the
release it reads. -/
def CapturesFirst (s : HelmState) (e : HelmEvent) : Prop :=
  e = .capture true →
    ∀ c ∈ s.created, floRelease s.upgrade.row.plan.steps ≠ some c.1

instance (s : HelmState) (e : HelmEvent) : Decidable (CapturesFirst s e) :=
  inferInstanceAs (Decidable (_ → _))

def Clean (revs : Release → List Nat) (s : HelmState) : Prop :=
  ∀ info, s.upgrade.row.rollbackInfo = some info →
    info.floRevision.isSome ∧
      info.floRevision = (revs ⟨info.floReleaseName, info.floNamespace⟩).getLast?

def Tainted (s : HelmState) : Prop :=
  ∃ rel r, floRelease s.upgrade.row.plan.steps = some rel ∧ (rel, r) ∈ s.created ∧
    s.upgrade.row.rollbackInfo = some ⟨some r, rel.name, rel.space⟩

theorem clean_step {s t : HelmState} {e : HelmEvent} (hinv : HistoryInv plan revs s)
    (h : Clean revs s) (hok : CapturesFirst s e) (hst : helmStep s e = some t) :
    Clean revs t := by
  cases moves_of_helmStep hst with
  | run he hu appended =>
    intro info hinfo
    exact h info ((rollbackInfo_of_step he hu).symm.trans hinfo)
  | helmUpgrade rel hr => exact h
  | capture hu =>
    intro info hinfo
    change _ = some info at hinfo
    rcases rollbackInfo_of_capture hu with hsame | ⟨rfl, rel, r, hrel, hlast, hnew⟩
    · exact h info (hsame.symm.trans hinfo)
    · -- the history read is the one from before the upgrade
      have hnone : createdOf s rel = [] := by
        apply eq_nil_iff_forall_not_mem.mpr
        intro q hq
        exact hok rfl _ (mem_createdOf.mp hq) hrel
      rw [hinv.revisions rel, hnone, append_nil] at hlast
      cases hnew.symm.trans hinfo
      exact ⟨rfl, hlast.symm⟩

private theorem tainted_of_capture {s : HelmState} {u : State} {rel : Release} {r : Nat}
    {answered : Bool} (hinv : HistoryInv plan revs s)
    (hu : step s.upgrade (.captureRollback (s.history answered)) = some u)
    (hrel : floRelease s.upgrade.row.plan.steps = some rel)
    (hcreated : ∃ c, (rel, c) ∈ s.created)
    (hlast : (s.revisions rel).getLast? = some r)
    (hnew : u.row.rollbackInfo = some ⟨some r, rel.name, rel.space⟩) :
    Tainted { s with upgrade := u } := by
  obtain ⟨c, hc⟩ := hcreated
  refine ⟨rel, r, ?_, ?_, hnew⟩
  · change floRelease u.row.plan.steps = some rel
    rw [plan_of_step hu]
    exact hrel
  · -- the last revision of the history is the last one created
    have hne : createdOf s rel ≠ [] := ne_nil_of_mem (mem_createdOf.mpr hc)
    rw [hinv.revisions rel, getLast?_append_of_ne_nil _ hne] at hlast
    exact mem_createdOf.mp (mem_of_getLast? hlast)

theorem tainted_step {s t : HelmState} {e : HelmEvent} (hinv : HistoryInv plan revs s)
    (h : Tainted s) (hst : helmStep s e = some t) : Tainted t := by
  have hplan := plan_of_helmStep hst
  obtain ⟨rel, r, hrel, hc, hinfo⟩ := h
  cases moves_of_helmStep hst with
  | run he hu appended =>
    refine ⟨rel, r, ?_, hc, (rollbackInfo_of_step he hu).trans hinfo⟩
    rw [hplan]
    exact hrel
  | helmUpgrade other hr =>
    exact ⟨rel, r, hrel, mem_append_left _ hc, hinfo⟩
  | capture hu =>
    rcases rollbackInfo_of_capture hu with hsame | ⟨rfl, other, q, hother, hlast, hnew⟩
    · refine ⟨rel, r, ?_, hc, hsame.trans hinfo⟩
      rw [hplan]
      exact hrel
    · cases hrel.symm.trans hother
      exact tainted_of_capture hinv hu hrel ⟨r, hc⟩ hlast hnew

theorem tainted_of_late_capture {s t : HelmState} {e : HelmEvent}
    (hinv : HistoryInv plan revs s) (hbad : ¬ CapturesFirst s e)
    (hst : helmStep s e = some t) : Tainted t := by
  obtain ⟨rfl, c, hc, hrel⟩ :
      e = .capture true ∧ ∃ c ∈ s.created, floRelease s.upgrade.row.plan.steps = some c.1 := by
    simpa [CapturesFirst] using hbad
  have hmem : c.2 ∈ createdOf s c.1 := mem_createdOf.mpr hc
  cases moves_of_helmStep hst with
  | capture hu =>
    have hne : s.revisions c.1 ≠ [] := by
      rw [hinv.revisions c.1]
      exact append_ne_nil_of_right_ne_nil _ (ne_nil_of_mem hmem)
    obtain ⟨q, hlast⟩ := Option.isSome_iff_exists.mp (getLast?_isSome.mpr hne)
    apply tainted_of_capture hinv hu hrel ⟨c.2, hc⟩ hlast
    have hrow : _ = captureRollback (s.history true) s.upgrade.row :=
      row_of_capture hu
    simp [hrow, captureRollback, rollbackInfoOf_eq, HelmState.history, hrel, hlast]

/-! ### The theorem -/

def RestoresPrevious (revs : Release → List Nat) (s : HelmState) (req : RollbackRequest) : Prop :=
  req.revision = (revs req.release).getLast? ∧
    ∀ r, req.revision = some r → (req.release, r) ∉ s.created

private theorem historyInv_initial (plan : UpgradePlan) (installShape : String)
    (revs : Release → List Nat) :
    HistoryInv plan revs (HelmState.initial plan installShape revs) := by
  constructor
  · rfl
  · intro rel
    exact (append_nil _).symm
  · intro rel r hr
    cases hr

private theorem restoresPrevious_of_clean {s : HelmState} {req : RollbackRequest}
    (hinv : HistoryInv plan revs s) (h : Clean revs s)
    (hreq : rollbackRequest s.upgrade.row = .ok req) : RestoresPrevious revs s req := by
  have hclean := (h _ (rollbackInfo_of_request hreq)).2
  refine ⟨hclean, ?_⟩
  intro r hr hmem
  have hold : r ∈ revs req.release := mem_of_getLast? (hclean.symm.trans hr)
  have hlt := hinv.above req.release r (mem_createdOf.mpr hmem) r hold
  omega

private theorem not_restoresPrevious_of_tainted {s : HelmState} {req : RollbackRequest}
    (h : Tainted s) (hreq : rollbackRequest s.upgrade.row = .ok req) :
    ¬ RestoresPrevious revs s req := by
  obtain ⟨rel, r, -, hc, hinfo⟩ := h
  intro hp
  have heq := hinfo.symm.trans (rollbackInfo_of_request hreq)
  simp only [Option.some.injEq, RollbackInfo.mk.injEq] at heq
  apply hp.2 r heq.1.symm
  have hrel : req.release = rel := by
    cases rel
    cases hr : req.release
    simp_all
  rw [hrel]
  exact hc

/-- A rollback restores the revision from before the upgrade exactly when no run captured
rollback info after the upgrade created a revision of the release. -/
theorem rollback_restores_previous_iff (plan : UpgradePlan) (installShape : String)
    (revs : Release → List Nat) (es : List HelmEvent) (t : HelmState)
    (hrun : Run helmStep Free (HelmState.initial plan installShape revs) es t)
    (helm : RollbackRequest → Except String String) (req : RollbackRequest)
    (hreq : (rollback helm t.upgrade.row).2 = .ok req) :
    RestoresPrevious revs t req ↔
      Run helmStep CapturesFirst (HelmState.initial plan installShape revs) es t := by
  have hreq := rollback_restores hreq
  have hinit := historyInv_initial plan installShape revs
  constructor
  · intro hp
    rcases hrun.guarded_or_violates CapturesFirst with h | hbad
    · exact h
    · obtain ⟨es₁, e, es₂, a, b, -, h₁, hv, hab, h₂⟩ := hbad
      have ha : HistoryInv plan revs a :=
        h₁.invariant hinit fun a e b ha _ hab ↦ historyInv_step ha hab
      have ht : HistoryInv plan revs t ∧ Tainted t := by
        apply h₂.invariant (P := fun s ↦ HistoryInv plan revs s ∧ Tainted s)
        · exact ⟨historyInv_step ha hab, tainted_of_late_capture ha hv hab⟩
        · intro a e b ha _ hab
          exact ⟨historyInv_step ha.1 hab, tainted_step ha.1 ha.2 hab⟩
      exact absurd hp (not_restoresPrevious_of_tainted ht.2 hreq)
  · intro hguard
    have ht : HistoryInv plan revs t ∧ Clean revs t := by
      apply hguard.invariant (P := fun s ↦ HistoryInv plan revs s ∧ Clean revs s)
      · exact ⟨hinit, nofun⟩
      · intro a e b ha hok hab
        exact ⟨historyInv_step ha.1 hab, clean_step ha.1 ha.2 hok hab⟩
    exact restoresPrevious_of_clean ht.1 ht.2 hreq

end Runs

def helmThenGatePlan : UpgradePlan where
  steps :=
    [⟨1, .helmUpgrade, "Upgrade FLO", "", some "flo", some "f5-cne-core"⟩,
      ⟨2, .healthGate, "Post-upgrade health check", "post_upgrade", none, none⟩]
  increasing := by simp

/-- Every release is at revision 5. -/
def atRevisionFive : Release → List Nat := fun _ ↦ [5]

/-- A Helm step that raises after its upgrade appended revision 6. -/
def failedHelmStep : List HelmEvent :=
  [.run .start, .capture true, .run .next, .helmUpgrade 6, .run (.executorRaised "timed out")]

def resumedAfterHelm : List HelmEvent :=
  [.run .start, .capture true, .run .next, .helmUpgrade 6, .run .kill, .run .start,
    .capture true, .run .next, .run .next, .run (.executorRaised "health gate timed out")]

def helmRollsBack : RollbackRequest → Except String String := fun _ ↦ .ok "healthy"

/-- After one failed run the rollback restores revision 5. -/
theorem rollback_restores_previous_failedHelmStep :
    ∃ t, exec helmStep (HelmState.initial helmThenGatePlan "flo" atRevisionFive)
        failedHelmStep = some t ∧
      (rollback helmRollsBack t.upgrade.row).2 = .ok ⟨⟨"flo", "f5-cne-core"⟩, some 5⟩ ∧
      RestoresPrevious atRevisionFive t ⟨⟨"flo", "f5-cne-core"⟩, some 5⟩ := by
  refine ⟨_, rfl, rfl, ?_⟩
  refine (rollback_restores_previous_iff helmThenGatePlan "flo" atRevisionFive failedHelmStep _
    (Run.free_iff_exec.mpr rfl) helmRollsBack _ rfl).mpr (Run.iff_exec.mpr rfl)

/-- A resumed run captures the revision its own upgrade created, and the rollback restores
that one. -/
theorem rollback_restores_own_revision :
    ¬ ∀ (plan : UpgradePlan) (installShape : String) (revs : Release → List Nat)
      (es : List HelmEvent) (t : HelmState) (helm : RollbackRequest → Except String String)
      (req : RollbackRequest), (∀ rel, (revs rel).Pairwise (· < ·)) →
      exec helmStep (HelmState.initial plan installShape revs) es = some t →
      (rollback helm t.upgrade.row).2 = .ok req → RestoresPrevious revs t req := by
  intro h
  have hp := h helmThenGatePlan "flo" atRevisionFive resumedAfterHelm _ helmRollsBack
    ⟨⟨"flo", "f5-cne-core"⟩, some 6⟩ (fun _ ↦ by simp [atRevisionFive]) rfl rfl
  have hlast : some 6 = [5].getLast? := hp.1
  simp at hlast

end BnkForge.Upgrade
