import BnkForge.Fleet.Waves
import BnkForge.Lib.Transition

/-!
# The executor of a bulk run

`_execute_bulk_run_with_db` (`backend/services/fleet_bulkop_service.py:342–616`) with the task
wrappers in front of it (`backend/tasks/fleet_tasks.py:145–207`) and the resume and cancel routes
(`backend/routes/fleet.py:1586–1686`), cut at their reads and commits. One executor works on a run
at a time. The number of threads and the length of a timed wait are left out: members of a wave are
dispatched in any order, and the message of a timed wait may be received at any time.
-/

namespace BnkForge.Fleet

/-! ### Checks -/

/-- `_check_ownership`; `backend/routes/auth.py:158`. -/
def checkOwnership (u : User) (p : Project) : Except AppError Unit :=
  if effectiveRole u = .admin then .ok ()
  else
    match p.userId with
    | none => .ok ()
    | some owner => if owner = u.id then .ok () else .error .forbidden

/-- `require_fleet_mutation`; `backend/services/fleet_rbac.py:28`. -/
def requireFleetMutation (db : Db) (u : User) : List (Option Nat) → Except AppError Unit
  | [] => .ok ()
  | none :: projectIds => requireFleetMutation db u projectIds
  | some pid :: projectIds =>
    match db.projects.find? (·.id == pid) with
    | none => requireFleetMutation db u projectIds
    | some p => do
      checkOwnership u p
      requireFleetMutation db u projectIds

def memberProjectIds (db : Db) (memberIds : List Nat) : List (Option Nat) :=
  (db.members.filter fun m ↦ memberIds.contains m.id).map FleetMember.projectId

/-- `DECISION_TTL_SECONDS`, in microseconds as all times here. -/
def decisionTtl : Int := 900 * 1000000

/-- `_assert_decision_fresh`; `backend/services/fleet_bulkop_service.py:64`. -/
def assertDecisionFresh (db : Db) (now : Int) (decision : FleetDecision) :
    Except RunError (List FleetMember) :=
  if decision.status ≠ .resolved then .error (.decisionStatus decision.status)
  else if now - decision.resolvedAt > decisionTtl then
    .error (.decisionStale (now - decision.resolvedAt))
  else
    let missing := decision.resolvedMemberIds.filter fun id ↦ !db.members.any (·.id == id)
    if missing = [] then .ok (fetchMembers db decision.resolvedMemberIds)
    else .error (.membersMissing missing)

/-- `STABLE_HEALTH_STATUSES`. -/
def stableHealthStatuses : List String := ["healthy", "active", "ready", "os_online"]

/-- `text.lower()`, as far as the stable statuses can tell. -/
def lowerText (text : String) : String := String.ofList (text.toList.map Char.toLower)

/-- `_wave_gate_passes`; `backend/services/fleet_bulkop_service.py:231`. -/
def waveGatePasses (db : Db) (waveMemberIds : List Nat) : GateMode → Bool
  | .healthStable =>
    (db.members.filter fun m ↦ waveMemberIds.contains m.id).all fun m ↦
      let status := lowerText (stripText (m.healthStatus.getD ""))
      status == "" || stableHealthStatuses.contains status
  | .manual | .approval | .timedWait | .other _ => false

/-! ### Member actions -/

/-- `ASSIGNED_LABEL_KEYS`. -/
def assignedLabelKeys : List String := ["env", "team", "criticality", "owner", "fault-domain"]

/-- `validate_assigned_labels`; its second check is about keys that are none of these. -/
def validateAssignedLabels (labels : Labels) : Bool :=
  labels.all fun label ↦ assignedLabelKeys.contains label.1

/-- What `reconcile_fleet_member` takes from the row that a member points to. -/
structure TargetFacts where
  projectId : Option Nat
  name : String
  discoveredLabels : Labels
  healthStatus : Option String
  deriving DecidableEq, Repr

def Db.writeMember (db : Db) (m : FleetMember) : Db :=
  if h : db.KnowsProject m then db.setMember m h else db

/-- `_dispatch_action_for_member`; `backend/services/fleet_bulkop_service.py:177`. The facts are
missing where the row that the member points to is, or where reading it raises. -/
def dispatchActionForMember (db : Db) (memberId : Nat) (action : Action) (labels : Labels)
    (facts : Option TargetFacts) : Db :=
  match db.members.find? (·.id == memberId) with
  | none => db
  | some m =>
    match action, facts with
    | .reReconcile, some f =>
      db.writeMember { m with
        projectId := f.projectId
        name := f.name
        discoveredLabels := f.discoveredLabels
        healthStatus := f.healthStatus
        reconciled := true }
    | .setLabels, _ =>
      if validateAssignedLabels labels then db.writeMember { m with assignedLabels := labels }
      else db
    | _, _ => db

/-! ### Runs and their executors -/

inductive Phase
  /-- No executor works on the run. -/
  | idle
  /-- The task is received. -/
  | received (resuming : Bool)
  /-- The status of the run has passed. -/
  | entered (resuming : Bool)
  /-- The decision is read. -/
  | loaded (resuming : Bool) (decision : FleetDecision)
  /-- The members are read and grouped, and nothing is committed. -/
  | planned (resuming : Bool) (plan : Plan)
  /-- About to commit that the run is refused. -/
  | refusing (error : RunError)
  /-- Before the cancel check of a wave. -/
  | boundary (plan : Plan) (wave : Nat)
  /-- The wave has passed the cancel check. -/
  | opening (plan : Plan) (wave : Nat)
  /-- The wave has started; members are still to be dispatched. -/
  | dispatching (plan : Plan) (wave : Nat) (pending : List Nat)
  /-- In the exception handler. -/
  | failing
  /-- About to commit that the run is complete. -/
  | ending
  deriving DecidableEq

structure Job where
  run : FleetBulkRun
  /-- The members that have a `FleetBulkRunResult` row. -/
  results : List Nat
  /-- The message of `run_fleet_bulk_op` is waiting. -/
  startMessage : Bool
  /-- The messages of `resume_fleet_bulk_op` that are waiting. -/
  resumeMessages : Nat
  phase : Phase
  /-- Cancel requests past their checks. -/
  cancels : Nat
  /-- Resume requests past their checks. -/
  resumes : Nat
  /-- The members dispatched so far, in order. -/
  log : List Nat
  deriving DecidableEq

inductive RunEvent
  | receiveStart
  | receiveResume
  | readRun
  | readDecision
  | checkMembers
  | commitStart
  | commitRefused
  | refresh
  | openWave
  | dispatch (memberId : Nat) (facts : Option TargetFacts)
  | gate
  | raise
  | commitFailed (message : String)
  | commitCompleted
  | crash
  | cancelRead (u : User)
  | cancelCommit
  | resumeRead (u : User)
  | resumeCommit
  deriving DecidableEq

/-- Move on to another part of the task, or give it up. -/
def Job.enter (j : Job) (phase : Phase) : Job := { j with phase }

def Plan.wave (plan : Plan) (i : Nat) : List Nat := plan.waves.getD i []

theorem Plan.wave_subset (plan : Plan) (i : Nat) : ∀ id ∈ plan.wave i, id ∈ plan.waves.flatten := by
  intro id hid
  unfold Plan.wave at hid
  rw [List.getD_eq_getElem?_getD] at hid
  cases hi : plan.waves[i]? with
  | none =>
    rw [hi] at hid
    exact absurd hid List.not_mem_nil
  | some wave =>
    rw [hi] at hid
    exact List.mem_flatten.mpr ⟨wave, List.mem_of_getElem? hi, hid⟩

/-- The start of the wave loop: at the stored index, or past the last wave. -/
def Plan.from (plan : Plan) (i : Nat) : Phase :=
  if i < plan.waves.length then .boundary plan i else .ending

/-- `decision_id` read back. -/
def Job.decision (db : Db) (j : Job) : Option FleetDecision := db.decisions[j.run.decisionId]?

def Job.gateBlocks (db : Db) (j : Job) : Bool :=
  match j.phase with
  | .dispatching plan i [] =>
    i + 1 != plan.waves.length &&
      (j.run.gateMode == .timedWait || !waveGatePasses db (plan.wave i) j.run.gateMode)
  | _ => false

/-- The steps before the first commit: the task wrappers, the guard on the status, the allowlist,
the freshness of the decision and the grouping. -/
def stepBefore (db : Db) (now : Int) (j : Job) : RunEvent → Option Job
  | .receiveStart =>
    if j.phase = .idle ∧ j.startMessage = true then
      some { j with startMessage := false, phase := .received false }
    else none
  | .receiveResume =>
    if j.phase = .idle ∧ 0 < j.resumeMessages then
      some { j with
        resumeMessages := j.resumeMessages - 1
        -- any other status raises
        phase := if j.run.status = .pausedGate then .received true else .idle }
    else none
  | .readRun =>
    match j.phase with
    | .received resuming =>
      if j.run.status.terminal = true ∨ j.run.status = .running then some (j.enter .idle)
      else some (j.enter (.entered resuming))
    | _ => none
  | .readDecision =>
    match j.phase with
    | .entered resuming =>
      match j.decision db with
      | none => some (j.enter (.refusing .decisionNotFound))
      | some decision =>
        if j.run.action.safe = true then some (j.enter (.loaded resuming decision))
        else some (j.enter (.refusing .actionNotSafe))
    | _ => none
  | .checkMembers =>
    match j.phase with
    | .loaded resuming decision =>
      if resuming = true then
        some (j.enter (.planned true (planWaves db j.run.waveBy decision.resolvedMemberIds)))
      else
        match assertDecisionFresh db now decision with
        | .error e => some (j.enter (.refusing e))
        | .ok _ =>
          some (j.enter (.planned false (planWaves db j.run.waveBy decision.resolvedMemberIds)))
    | _ => none
  | .commitRefused =>
    match j.phase with
    | .refusing e =>
      some { j with
        run := { j.run with status := .failed, errorMessage := some e }
        phase := .idle }
    | _ => none
  | _ => none

def stepStart (db : Db) (now : Int) (j : Job) : RunEvent → Option (Db × Job)
  | .commitStart =>
    match j.phase with
    | .planned resuming plan =>
      some (if resuming = true then db else db.setDecisionStatus j.run.decisionId .consumed,
        { j with
          run := { j.run with
            status := .running
            totalWaves := some plan.waves.length
            startedAt := if resuming = true then j.run.startedAt else some now }
          phase := plan.from j.run.currentWaveIndex })
    | _ => none
  | _ => none

def stepLoop (db : Db) (j : Job) : RunEvent → Option Job
  | .refresh =>
    match j.phase with
    | .boundary plan i =>
      if j.run.status = .cancelled then some (j.enter .idle) else some (j.enter (.opening plan i))
    | _ => none
  | .openWave =>
    match j.phase with
    | .opening plan i =>
      let fresh := (plan.wave i).filter fun id ↦ !j.results.contains id
      -- a deleted member cannot be reloaded, and a member has one result row
      if (∀ id ∈ plan.wave i, db.members.any (·.id == id) = true) ∧ fresh.Nodup then
        some { j with
          run := { j.run with currentWaveIndex := i }
          results := j.results ++ fresh
          phase := .dispatching plan i (plan.wave i) }
      else some { j with run := { j.run with currentWaveIndex := i }, phase := .failing }
    | _ => none
  | .gate =>
    match j.phase with
    | .dispatching plan i [] =>
      if i + 1 = plan.waves.length then some (j.enter .ending)
      else if j.run.gateMode = .timedWait then
        some { j with
          run := { j.run with status := .pausedGate, currentWaveIndex := i + 1 }
          resumeMessages := j.resumeMessages + 1
          phase := .idle }
      else if waveGatePasses db (plan.wave i) j.run.gateMode = true then
        some (j.enter (.boundary plan (i + 1)))
      else
        some { j with
          run := { j.run with status := .pausedGate, currentWaveIndex := i + 1 }
          phase := .idle }
    | _ => none
  | .raise =>
    match j.phase with
    | .boundary _ _ | .opening _ _ | .dispatching _ _ _ | .ending => some (j.enter .failing)
    | _ => none
  | .commitFailed message =>
    match j.phase with
    | .failing =>
      some { j with
        run := { j.run with status := .failed, errorMessage := some (.raised message) }
        phase := .idle }
    | _ => none
  | .commitCompleted =>
    match j.phase with
    | .ending => some { j with run := { j.run with status := .completed }, phase := .idle }
    | _ => none
  | .crash => if j.phase = .idle then none else some (j.enter .idle)
  | _ => none

def stepDispatch (db : Db) (j : Job) : RunEvent → Option (Db × Job)
  | .dispatch memberId facts =>
    match j.phase with
    | .dispatching plan i pending =>
      if memberId ∈ pending then
        some (dispatchActionForMember db memberId j.run.action j.run.actionLabels facts,
          { j with
            phase := .dispatching plan i (pending.erase memberId)
            log := j.log ++ [memberId] })
      else none
    | _ => none
  | _ => none

/-- `cancel_fleet_bulk_op` and `resume_fleet_bulk_op_route`, each cut between its checks and its
commit. -/
def stepRequest (db : Db) (j : Job) : RunEvent → Option Job
  | .cancelRead u =>
    match requireFleetMutation db u [j.run.projectId] with
    | .error _ => none
    | .ok _ =>
      if j.run.status.terminal = true then none else some { j with cancels := j.cancels + 1 }
  | .cancelCommit =>
    if 0 < j.cancels then
      some { j with run := { j.run with status := .cancelled }, cancels := j.cancels - 1 }
    else none
  | .resumeRead u =>
    if j.run.status ≠ .pausedGate then none
    else
      let memberIds := (j.decision db).elim [] FleetDecision.resolvedMemberIds
      match requireFleetMutation db u (j.run.projectId :: memberProjectIds db memberIds) with
      | .error _ => none
      | .ok _ => some { j with resumes := j.resumes + 1 }
  | .resumeCommit =>
    if 0 < j.resumes then
      some { j with
        run := { j.run with status := .running }
        resumes := j.resumes - 1
        resumeMessages := j.resumeMessages + 1 }
    else none
  | _ => none

def stepJob (db : Db) (now : Int) (j : Job) (e : RunEvent) : Option (Db × Job) :=
  match e with
  | .receiveStart | .receiveResume | .readRun | .readDecision | .checkMembers | .commitRefused =>
    (stepBefore db now j e).map (db, ·)
  | .commitStart => stepStart db now j e
  | .dispatch _ _ => stepDispatch db j e
  | .cancelRead _ | .cancelCommit | .resumeRead _ | .resumeCommit =>
    (stepRequest db j e).map (db, ·)
  | .refresh | .openWave | .gate | .raise | .commitFailed _ | .commitCompleted | .crash =>
    (stepLoop db j e).map (db, ·)

inductive JobStep (db : Db) (now : Int) (j : Job) : RunEvent → Db → Job → Prop
  | receiveStart (hphase : j.phase = .idle) (hmessage : j.startMessage = true) :
      JobStep db now j .receiveStart db
        { j with startMessage := false, phase := .received false }
  | receiveResume (hphase : j.phase = .idle) (hstatus : j.run.status = .pausedGate) :
      JobStep db now j .receiveResume db
        { j with resumeMessages := j.resumeMessages - 1, phase := .received true }
  | dropResume (hphase : j.phase = .idle) (hstatus : j.run.status ≠ .pausedGate) :
      JobStep db now j .receiveResume db { j with resumeMessages := j.resumeMessages - 1 }
  | reject (resuming : Bool) (hphase : j.phase = .received resuming) :
      JobStep db now j .readRun db (j.enter .idle)
  | readRun (resuming : Bool) (hphase : j.phase = .received resuming)
      (hterminal : j.run.status.terminal = false) (hrunning : j.run.status ≠ .running) :
      JobStep db now j .readRun db (j.enter (.entered resuming))
  | readDecision (resuming : Bool) (decision : FleetDecision)
      (hphase : j.phase = .entered resuming) (hdecision : j.decision db = some decision) :
      JobStep db now j .readDecision db (j.enter (.loaded resuming decision))
  | refuse (e : RunEvent) (error : RunError) (he : e = .readDecision ∨ e = .checkMembers)
      (hphase : (∃ resuming, j.phase = .entered resuming) ∨
        ∃ resuming decision, j.phase = .loaded resuming decision) :
      JobStep db now j e db (j.enter (.refusing error))
  | checkMembers (resuming : Bool) (decision : FleetDecision)
      (hphase : j.phase = .loaded resuming decision)
      (hfresh : resuming = false → decision.status = .resolved) :
      JobStep db now j .checkMembers db
        (j.enter (.planned resuming (planWaves db j.run.waveBy decision.resolvedMemberIds)))
  | commitStart (resuming : Bool) (plan : Plan) (hphase : j.phase = .planned resuming plan) :
      JobStep db now j .commitStart
        (if resuming = true then db else db.setDecisionStatus j.run.decisionId .consumed)
        { j with
          run := { j.run with
            status := .running
            totalWaves := some plan.waves.length
            startedAt := if resuming = true then j.run.startedAt else some now }
          phase := plan.from j.run.currentWaveIndex }
  | commitRefused (error : RunError) (hphase : j.phase = .refusing error) :
      JobStep db now j .commitRefused db
        { j with
          run := { j.run with status := .failed, errorMessage := some error }
          phase := .idle }
  | stop (plan : Plan) (i : Nat) (hphase : j.phase = .boundary plan i) :
      JobStep db now j .refresh db (j.enter .idle)
  | refresh (plan : Plan) (i : Nat) (hphase : j.phase = .boundary plan i)
      (hstatus : j.run.status ≠ .cancelled) :
      JobStep db now j .refresh db (j.enter (.opening plan i))
  | openWave (plan : Plan) (i : Nat) (hphase : j.phase = .opening plan i)
      (hnodup : ((plan.wave i).filter fun id ↦ !j.results.contains id).Nodup) :
      JobStep db now j .openWave db
        { j with
          run := { j.run with currentWaveIndex := i }
          results := j.results ++ (plan.wave i).filter fun id ↦ !j.results.contains id
          phase := .dispatching plan i (plan.wave i) }
  | openFails (plan : Plan) (i : Nat) (hphase : j.phase = .opening plan i) :
      JobStep db now j .openWave db
        { j with run := { j.run with currentWaveIndex := i }, phase := .failing }
  | dispatch (memberId : Nat) (facts : Option TargetFacts) (plan : Plan) (i : Nat)
      (pending : List Nat) (hphase : j.phase = .dispatching plan i pending)
      (hmem : memberId ∈ pending) :
      JobStep db now j (.dispatch memberId facts)
        (dispatchActionForMember db memberId j.run.action j.run.actionLabels facts)
        { j with
          phase := .dispatching plan i (pending.erase memberId)
          log := j.log ++ [memberId] }
  | lastWave (plan : Plan) (i : Nat) (hphase : j.phase = .dispatching plan i [])
      (hlast : i + 1 = plan.waves.length) :
      JobStep db now j .gate db (j.enter .ending)
  | nextWave (plan : Plan) (i : Nat) (hphase : j.phase = .dispatching plan i [])
      (hlast : i + 1 ≠ plan.waves.length) :
      JobStep db now j .gate db (j.enter (.boundary plan (i + 1)))
  | pause (plan : Plan) (i resumeMessages : Nat) (hphase : j.phase = .dispatching plan i [])
      (hblocks : j.gateBlocks db = true) :
      JobStep db now j .gate db
        { j with
          run := { j.run with status := .pausedGate, currentWaveIndex := i + 1 }
          resumeMessages := resumeMessages
          phase := .idle }
  | raise (hphase : (∃ plan i, j.phase = .boundary plan i) ∨ (∃ plan i, j.phase = .opening plan i) ∨
        (∃ plan i pending, j.phase = .dispatching plan i pending) ∨ j.phase = .ending) :
      JobStep db now j .raise db (j.enter .failing)
  | commitFailed (message : String) (hphase : j.phase = .failing) :
      JobStep db now j (.commitFailed message) db
        { j with
          run := { j.run with status := .failed, errorMessage := some (.raised message) }
          phase := .idle }
  | commitCompleted (hphase : j.phase = .ending) :
      JobStep db now j .commitCompleted db
        { j with run := { j.run with status := .completed }, phase := .idle }
  | crash : JobStep db now j .crash db (j.enter .idle)
  | cancelRead (u : User) (hstatus : j.run.status.terminal = false) :
      JobStep db now j (.cancelRead u) db { j with cancels := j.cancels + 1 }
  | cancelCommit :
      JobStep db now j .cancelCommit db
        { j with run := { j.run with status := .cancelled }, cancels := j.cancels - 1 }
  | resumeRead (u : User) (hstatus : j.run.status = .pausedGate) :
      JobStep db now j (.resumeRead u) db { j with resumes := j.resumes + 1 }
  | resumeCommit (hresumes : 0 < j.resumes) :
      JobStep db now j .resumeCommit db
        { j with
          run := { j.run with status := .running }
          resumes := j.resumes - 1
          resumeMessages := j.resumeMessages + 1 }

section Inversion

variable {db db' : Db} {now : Int} {j j' : Job} {e : RunEvent}

private theorem jobStep_of_stepBefore (h : stepBefore db now j e = some j') :
    JobStep db now j e db j' := by
  unfold stepBefore at h
  cases e with
  | receiveStart =>
    obtain ⟨⟨hphase, hmessage⟩, ⟨⟩⟩ := Option.ite_none_right_eq_some.mp h
    exact .receiveStart hphase hmessage
  | receiveResume =>
    obtain ⟨⟨hphase, -⟩, ⟨⟩⟩ := Option.ite_none_right_eq_some.mp h
    by_cases hstatus : j.run.status = .pausedGate
    · rw [if_pos hstatus]
      exact .receiveResume hphase hstatus
    · rw [if_neg hstatus, ← hphase]
      exact .dropResume hphase hstatus
  | readRun =>
    dsimp only at h
    split at h
    · next resuming hphase =>
      split at h
      · cases h
        exact .reject resuming hphase
      · next hstatus =>
        cases h
        rw [not_or, Bool.not_eq_true] at hstatus
        exact .readRun resuming hphase hstatus.1 hstatus.2
    · cases h
  | readDecision =>
    dsimp only at h
    split at h
    · next resuming hphase =>
      split at h
      · cases h
        exact .refuse _ _ (Or.inl rfl) (Or.inl ⟨resuming, hphase⟩)
      · next decision hdecision =>
        split at h
        · cases h
          exact .readDecision resuming decision hphase hdecision
        · cases h
          exact .refuse _ _ (Or.inl rfl) (Or.inl ⟨resuming, hphase⟩)
    · cases h
  | checkMembers =>
    dsimp only at h
    split at h
    · next resuming decision hphase =>
      split at h
      · next hresuming =>
        cases h
        cases hresuming
        exact .checkMembers true decision hphase nofun
      · next hresuming =>
        rw [Bool.not_eq_true] at hresuming
        cases hresuming
        split at h
        · cases h
          exact .refuse _ _ (Or.inr rfl) (Or.inr ⟨false, decision, hphase⟩)
        · next hfresh =>
          cases h
          refine .checkMembers false decision hphase fun _ ↦ ?_
          by_contra hstatus
          rw [assertDecisionFresh, if_pos hstatus] at hfresh
          cases hfresh
    · cases h
  | commitRefused =>
    dsimp only at h
    split at h
    · next error hphase =>
      cases h
      exact .commitRefused error hphase
    · cases h
  | _ => cases h

private theorem jobStep_of_stepStart (h : stepStart db now j e = some (db', j')) :
    JobStep db now j e db' j' := by
  unfold stepStart at h
  cases e with
  | commitStart =>
    dsimp only at h
    split at h
    · next resuming plan hphase =>
      cases h
      exact .commitStart resuming plan hphase
    · cases h
  | _ => cases h

private theorem jobStep_of_stepLoop (h : stepLoop db j e = some j') : JobStep db now j e db j' := by
  unfold stepLoop at h
  cases e with
  | refresh =>
    dsimp only at h
    split at h
    · next plan i hphase =>
      split at h
      · cases h
        exact .stop plan i hphase
      · next hstatus =>
        cases h
        exact .refresh plan i hphase hstatus
    · cases h
  | openWave =>
    dsimp only at h
    split at h
    · next plan i hphase =>
      split at h
      · next hok =>
        cases h
        exact .openWave plan i hphase hok.2
      · cases h
        exact .openFails plan i hphase
    · cases h
  | gate =>
    dsimp only at h
    split at h
    · next plan i hphase =>
      split at h
      · next hlast =>
        cases h
        exact .lastWave plan i hphase hlast
      · next hlast =>
        split at h
        · next htimed =>
          cases h
          exact .pause plan i _ hphase (by simp [Job.gateBlocks, hphase, hlast, htimed])
        · split at h
          · cases h
            exact .nextWave plan i hphase hlast
          · next hgate =>
            cases h
            exact .pause plan i j.resumeMessages hphase
              (by simp [Job.gateBlocks, hphase, hlast, hgate])
    · cases h
  | raise =>
    dsimp only at h
    split at h
    · next plan i hphase =>
      cases h
      exact .raise (Or.inl ⟨plan, i, hphase⟩)
    · next plan i hphase =>
      cases h
      exact .raise (Or.inr (Or.inl ⟨plan, i, hphase⟩))
    · next plan i pending hphase =>
      cases h
      exact .raise (Or.inr (Or.inr (Or.inl ⟨plan, i, pending, hphase⟩)))
    · next hphase =>
      cases h
      exact .raise (Or.inr (Or.inr (Or.inr hphase)))
    · cases h
  | commitFailed message =>
    dsimp only at h
    split at h
    · next hphase =>
      cases h
      exact .commitFailed message hphase
    · cases h
  | commitCompleted =>
    dsimp only at h
    split at h
    · next hphase =>
      cases h
      exact .commitCompleted hphase
    · cases h
  | crash =>
    obtain ⟨-, ⟨⟩⟩ := Option.ite_none_left_eq_some.mp h
    exact .crash
  | _ => cases h

private theorem jobStep_of_stepDispatch (h : stepDispatch db j e = some (db', j')) :
    JobStep db now j e db' j' := by
  unfold stepDispatch at h
  cases e with
  | dispatch memberId facts =>
    dsimp only at h
    split at h
    · next plan i pending hphase =>
      obtain ⟨hmem, ⟨⟩⟩ := Option.ite_none_right_eq_some.mp h
      exact .dispatch memberId facts plan i pending hphase hmem
    · cases h
  | _ => cases h

private theorem jobStep_of_stepRequest (h : stepRequest db j e = some j') :
    JobStep db now j e db j' := by
  unfold stepRequest at h
  cases e with
  | cancelRead u =>
    dsimp only at h
    split at h
    · cases h
    · obtain ⟨hstatus, ⟨⟩⟩ := Option.ite_none_left_eq_some.mp h
      exact .cancelRead u (Bool.not_eq_true _ ▸ hstatus)
  | cancelCommit =>
    obtain ⟨-, ⟨⟩⟩ := Option.ite_none_right_eq_some.mp h
    exact .cancelCommit
  | resumeRead u =>
    obtain ⟨hstatus, h⟩ := Option.ite_none_left_eq_some.mp h
    dsimp only at h
    split at h
    · cases h
    · cases h
      exact .resumeRead u (not_not.mp hstatus)
  | resumeCommit =>
    obtain ⟨hresumes, ⟨⟩⟩ := Option.ite_none_right_eq_some.mp h
    exact .resumeCommit hresumes
  | _ => cases h

theorem jobStep_of_stepJob (h : stepJob db now j e = some (db', j')) :
    JobStep db now j e db' j' := by
  unfold stepJob at h
  split at h
  case _ | _ | _ | _ | _ | _ =>
    obtain ⟨_, h, ⟨⟩⟩ := Option.map_eq_some_iff.mp h
    exact jobStep_of_stepBefore h
  · exact jobStep_of_stepStart h
  · exact jobStep_of_stepDispatch h
  all_goals
    obtain ⟨_, h, ⟨⟩⟩ := Option.map_eq_some_iff.mp h
    first
    | exact jobStep_of_stepRequest h
    | exact jobStep_of_stepLoop h

theorem JobStep.decisionId (h : JobStep db now j e db' j') :
    j'.run.decisionId = j.run.decisionId := by
  cases h <;> rfl

end Inversion

end BnkForge.Fleet
