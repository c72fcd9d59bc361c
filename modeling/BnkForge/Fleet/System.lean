import BnkForge.Fleet.Executor
import BnkForge.Lib.ExceptResult

/-!
# The fleet at work

The routes that create decisions and bulk runs: `resolve_fleet_target`, `start_fleet_bulk_op`,
`run_fleet_selection`, `rerun_fleet_bulk_op` (`backend/routes/fleet.py:1180–1520`, `:1868–1975`) and
`enforce_fleet_policy` with `enforce_policy` (`backend/routes/fleet.py:2309–2372`,
`backend/services/fleet_policy_service.py:364–520`), and the system of these routes, the executors
of the runs and everything else that writes the tables. A run is named by its position.
-/

namespace BnkForge.Fleet

open Transition ExceptResult

/-- A resolve request that has read its rows and not committed. -/
structure Resolution where
  decision : FleetDecision
  /-- The decisions it is going to supersede. -/
  prior : List Nat
  deriving DecidableEq

/-- The tables, the time and what is under way. -/
structure World where
  db : Db
  now : Int
  resolutions : List Resolution
  jobs : List Job

structure BulkRunRequest where
  action : Action
  actionLabels : Labels
  concurrency : Option Int
  gateMode : Option GateMode
  strategyId : Option Nat
  deriving DecidableEq, Repr

/-! ### Parts of the routes -/

/-- `require_operator`. -/
def requireOperator (u : User) : Except AppError Unit :=
  if effectiveRole u = .viewer then .error .forbidden else .ok ()

/-- `resolve_rollout_defaults`; `backend/services/fleet_rbac.py:65`. -/
def resolveRolloutDefaults (db : Db) (projectIds : List (Option Nat)) : Int × GateMode :=
  let projects := projectIds.filterMap fun pid ↦ pid.bind fun id ↦ db.projects.find? (·.id == id)
  let concurrency :=
    match (projects.filterMap Project.fleetDefaultConcurrency).dedup with
    | [c] => c
    | _ => 5
  let gateMode :=
    match (projects.filterMap Project.fleetDefaultGateMode).dedup with
    | [g] => g
    | _ => .manual
  (concurrency, gateMode)

def resolveRollout (db : Db) (projectIds : List (Option Nat)) (body : BulkRunRequest) :
    Except AppError (Int × GateMode) :=
  let defaults := resolveRolloutDefaults db projectIds
  let concurrency := body.concurrency.getD defaults.1
  let gateMode := body.gateMode.getD defaults.2
  if gateMode ≠ .healthStable ∧ gateMode ≠ .manual then
    .error (.badRequest "gate_mode is not valid. Allowed: ['health_stable', 'manual']")
  else if concurrency < 1 ∨ 50 < concurrency then
    .error (.badRequest "concurrency must be between 1 and 50.")
  else .ok (concurrency, gateMode)

/-- `_apply_strategy_snapshot`; `backend/routes/fleet.py:740`. -/
def applyStrategySnapshot (run : FleetBulkRun) (s : FleetOperationStrategy) : FleetBulkRun :=
  { run with
    strategyId := some s.id
    waveBy := s.waveBy
    gateMode := if s.gateKind = .approval then .manual else s.gateKind }

def findStrategy (db : Db) (id : Nat) : Option FleetOperationStrategy :=
  db.strategies.find? fun s ↦ s.id == id && !s.deleted

def newRun (decisionId : Nat) (projectId : Option Nat) (action : Action) (labels : Labels)
    (rollout : Int × GateMode) (createdBy : String) : FleetBulkRun where
  decisionId := decisionId
  projectId := projectId
  action := action
  actionLabels := labels
  waveBy := .faultDomain
  concurrency := rollout.1
  gateMode := rollout.2
  strategyId := none
  status := .pending
  currentWaveIndex := 0
  totalWaves := none
  errorMessage := none
  startedAt := none
  createdBy := createdBy

def withStrategy (db : Db) (run : FleetBulkRun) : Option Nat → Except AppError FleetBulkRun
  | none => .ok run
  | some id =>
    match findStrategy db id with
    | some s => .ok (applyStrategySnapshot run s)
    | none => .error (.notFound "FleetOperationStrategy" (toString id))

def World.dispatchRun (w : World) (run : FleetBulkRun) : World :=
  { w with jobs := w.jobs ++ [⟨run, [], true, 0, .idle, 0, 0, []⟩] }

/-- The allowlist check of the routes. -/
def requireSafe (action : Action) : Except AppError Unit :=
  if action.safe = true then .ok ()
  else .error (.badRequest "Action is not allowed. Allowed actions: ['re-reconcile', 'set-labels']")

def findDecision (db : Db) (decisionId : Nat) : Except AppError FleetDecision :=
  match db.decisions[decisionId]? with
  | some d => .ok d
  | none => .error (.notFound "FleetDecision" (toString decisionId))

/-! ### Routes -/

/-- `start_fleet_bulk_op`; `backend/routes/fleet.py:1247`. -/
def startFleetBulkOp (w : World) (u : User) (decisionId : Nat) (body : BulkRunRequest) :
    Except AppError World := do
  requireOperator u
  requireSafe body.action
  let decision ← findDecision w.db decisionId
  if decision.status ≠ .resolved then
    .error (.badRequest ("only 'resolved' decisions can be used to start a bulk run. " ++
      "Re-resolve the target."))
  else
    let projectIds := decision.projectId :: memberProjectIds w.db decision.resolvedMemberIds
    requireFleetMutation w.db u projectIds
    let rollout ← resolveRollout w.db projectIds body
    let run ← withStrategy w.db
      (newRun decisionId decision.projectId body.action body.actionLabels rollout u.username)
      body.strategyId
    return w.dispatchRun run

/-- The members of the fleet as `run_fleet_selection` reads them, whoever asks. -/
def fleetMemberIds (db : Db) (target : FleetTarget) : List Nat :=
  let labelFilters := target.selector.labelFilters
  if labelFilters = [] ∧ target.pinnedMemberIds = [] then []
  else
    let matched :=
      if labelFilters = [] then [] else db.members.filter fun m ↦ matchesSelector m labelFilters
    let extraIds := target.pinnedMemberIds.filter fun pid ↦ !matched.any (·.id == pid)
    (matched ++ db.members.filter fun m ↦ extraIds.contains m.id).map FleetMember.id

/-- `run_fleet_selection`; `backend/routes/fleet.py:1366`. The decision is committed before the
strategy is looked up, so it stays where that fails. -/
def runFleetSelection (w : World) (u : User) (targetId : Nat) (memberIds : List Nat)
    (body : BulkRunRequest) : Except AppError (World × Option AppError) := do
  requireOperator u
  let target ← findTarget w.db targetId
  let intersected := memberIds.filter (fleetMemberIds w.db target).contains
  if intersected = [] then
    .error (.badRequest
      "None of the requested member_ids belong to this fleet, or the fleet is empty.")
  else
    requireSafe body.action
    let projectIds := target.projectId :: memberProjectIds w.db intersected
    requireFleetMutation w.db u projectIds
    let rollout ← resolveRollout w.db projectIds body
    let db := (decisionFromMemberIds w.db target intersected u.username w.now).1
    let run := newRun w.db.decisions.length target.projectId body.action body.actionLabels rollout
      u.username
    match withStrategy db run body.strategyId with
    | .ok run => return ({ w with db }.dispatchRun run, none)
    | .error e => return ({ w with db }, some e)

/-- The run that `rerun_fleet_bulk_op` makes of the original one. -/
def cloneRun (db : Db) (original : FleetBulkRun) (decisionId : Nat) (rollout : Int × GateMode)
    (createdBy : String) : FleetBulkRun :=
  let run := newRun decisionId original.projectId original.action original.actionLabels
    (if original.concurrency = 0 then rollout.1 else original.concurrency, original.gateMode)
    createdBy
  let run := { run with waveBy := original.waveBy }
  match original.strategyId with
  | none => run
  | some id =>
    match findStrategy db id with
    | some s => applyStrategySnapshot run s
    | none => { run with strategyId := some id }

/-- `rerun_fleet_bulk_op`; `backend/routes/fleet.py:1876`. -/
def rerunFleetBulkOp (w : World) (u : User) (runId : Nat) : Except AppError World := do
  requireOperator u
  match w.jobs[runId]? with
  | none => .error (.notFound "FleetBulkRun" (toString runId))
  | some original =>
    if original.run.status.terminal = false then
      .error
        (.badRequest "Only terminal runs (['cancelled', 'completed', 'failed']) can be re-run.")
    else
      let decision ← findDecision w.db original.run.decisionId
      let target ← findTarget w.db decision.targetId
      let projectIds :=
        original.run.projectId :: memberProjectIds w.db decision.resolvedMemberIds
      requireFleetMutation w.db u projectIds
      let (db, _) ← resolveTarget w.db target u w.now
      return { w with db }.dispatchRun
        (cloneRun w.db original.run w.db.decisions.length (resolveRolloutDefaults db projectIds)
          u.username)

/-- `_evaluate_label_compliance` finds that labels are missing. -/
def labelsDrifted (requiredLabels : List String) (m : FleetMember) : Bool :=
  m.reconciled && requiredLabels.any fun req ↦
    match partitionEq req with
    | none => false
    | some (key, value) => m.assignedLabels.lookup key != some value

/-- The labels that a policy sets, the last value of a key. -/
def requiredDict (requiredLabels : List String) : Labels :=
  (requiredLabels.filterMap partitionEq).foldl
    (fun labels label ↦ labels.filter (fun l ↦ l.1 != label.1) ++ [label]) []

/-- `enforce_policy`; `backend/services/fleet_policy_service.py:364`. -/
def enforcePolicy (w : World) (u : User) (policy : FleetPolicy) (rollout : Int × GateMode) :
    Except AppError World := do
  if policy.enforces = false then
    .error (.badRequest "only 'enforce' mode can enforce.")
  else if policy.kind ≠ .labelCompliance then
    .error (.badRequest ("Policy kind does not support enforce mode. OS-compliance-seed is " ++
      "inform-only (OS facts are reconcile-written; cannot be remediated via set-labels)."))
  else
    match w.db.targets.find? (·.id == policy.targetId) with
    | none => .error (.notFound "FleetTarget" (toString policy.targetId))
    | some target =>
      let members ← resolveMemberIdsReadonly w.db u target
      let drifted := members.filter (labelsDrifted policy.requiredLabels)
      if drifted = [] then return w
      else
        let db := (decisionFromMemberIds w.db target (drifted.map FleetMember.id) u.username
          w.now).1
        return { w with db }.dispatchRun
          (newRun w.db.decisions.length policy.projectId .setLabels
            (requiredDict policy.requiredLabels) rollout u.username)

def latestDecision (db : Db) (targetId : Nat) : Option FleetDecision :=
  db.decisions.reverse.find? fun d ↦ d.targetId == targetId && d.status == .resolved

/-- `enforce_fleet_policy`; `backend/routes/fleet.py:2309`. -/
def enforceFleetPolicy (w : World) (u : User) (policyId : Nat) : Except AppError World := do
  requireOperator u
  match w.db.policies.find? fun p ↦ p.id == policyId && !p.deleted with
  | none => .error (.notFound "FleetPolicy" (toString policyId))
  | some policy =>
    let memberIds := (latestDecision w.db policy.targetId).elim [] FleetDecision.resolvedMemberIds
    let projectIds := policy.projectId :: memberProjectIds w.db memberIds
    requireFleetMutation w.db u projectIds
    enforcePolicy w u policy (resolveRolloutDefaults w.db projectIds)

/-- The reads of `resolve_fleet_target`; `backend/routes/fleet.py:1180`. -/
def resolveFleetTarget (w : World) (u : User) (targetId : Nat) : Except AppError Resolution := do
  requireOperator u
  let target ← findTarget w.db targetId
  validateSelector target.selector
  let memberIds := (resolveMembers w.db u target.selector.labelFilters
    target.pinnedMemberIds).map FleetMember.id
  return ⟨newDecision target memberIds u.username w.now, priorDecisions w.db target.id⟩

/-! ### The system -/

/-- What can happen. -/
inductive Event
  | advance (microseconds : Nat)
  | putProject (p : Project)
  | removeProject (projectId : Nat)
  | addMember (m : FleetMember)
  | changeMember (m : FleetMember)
  | removeMember (memberId : Nat)
  | putTarget (t : FleetTarget)
  | putStrategy (s : FleetOperationStrategy)
  | putPolicy (p : FleetPolicy)
  | resolveRead (u : User) (targetId : Nat)
  | resolveCommit (i : Nat)
  | start (u : User) (decisionId : Nat) (body : BulkRunRequest)
  | selection (u : User) (targetId : Nat) (memberIds : List Nat) (body : BulkRunRequest)
  | rerun (u : User) (runId : Nat)
  | enforce (u : User) (policyId : Nat)
  | run (runId : Nat) (e : RunEvent)
  deriving DecidableEq

def step (w : World) : Event → Option World
  | .advance microseconds => some { w with now := w.now + microseconds }
  | .putProject p => some { w with db := w.db.putProject p }
  | .removeProject projectId => some { w with db := w.db.removeProject projectId }
  | .addMember m =>
    if h : w.db.KnowsProject m then some { w with db := w.db.addMember m h } else none
  | .changeMember m =>
    if h : w.db.KnowsProject m then some { w with db := w.db.setMember m h } else none
  | .removeMember memberId => some { w with db := w.db.removeMember memberId }
  | .putTarget t => some { w with db := w.db.putTarget t }
  | .putStrategy s => some { w with db := w.db.putStrategy s }
  | .putPolicy p => some { w with db := w.db.putPolicy p }
  | .resolveRead u targetId =>
    match resolveFleetTarget w u targetId with
    | .ok r => some { w with resolutions := w.resolutions ++ [r] }
    | .error _ => none
  | .resolveCommit i =>
    match w.resolutions[i]? with
    | some r =>
      some { w with
        db := recordDecision w.db r.prior r.decision
        resolutions := w.resolutions.eraseIdx i }
    | none => none
  | .start u decisionId body => (startFleetBulkOp w u decisionId body).toOption
  | .selection u targetId memberIds body =>
    (runFleetSelection w u targetId memberIds body).toOption.map Prod.fst
  | .rerun u runId => (rerunFleetBulkOp w u runId).toOption
  | .enforce u policyId => (enforceFleetPolicy w u policyId).toOption
  | .run runId e =>
    match w.jobs[runId]? with
    | some j =>
      (stepJob w.db w.now j e).map fun (db, j) ↦ { w with db, jobs := w.jobs.set runId j }
    | none => none

/-- A fleet before its first bulk run and its first decision. -/
def World.initial (db : Db) (now : Int) : World := ⟨{ db with decisions := [] }, now, [], []⟩

/-! ### What the routes do -/

/-- A run as the routes create it. -/
structure FreshRun (run : FleetBulkRun) (decisionId : Nat) : Prop where
  decisionId : run.decisionId = decisionId
  status : run.status = .pending
  currentWaveIndex : run.currentWaveIndex = 0
  startedAt : run.startedAt = none

section Routes

variable {w w' : World} {u : User} {decisionId targetId runId policyId : Nat}
  {memberIds : List Nat} {body : BulkRunRequest}

private theorem ite_error_eq_ok {α : Type} {c : Prop} [Decidable c] {e : AppError}
    {x : Except AppError α} {a : α} :
    (if c then .error e else x) = .ok a ↔ ¬ c ∧ x = .ok a := by
  by_cases h : c <;> simp [h]

theorem freshRun_newRun (projectId : Option Nat) (action : Action) (labels : Labels)
    (rollout : Int × GateMode) (createdBy : String) :
    FreshRun (newRun decisionId projectId action labels rollout createdBy) decisionId :=
  ⟨rfl, rfl, rfl, rfl⟩

theorem FreshRun.applyStrategySnapshot {run : FleetBulkRun} (h : FreshRun run decisionId)
    (s : FleetOperationStrategy) : FreshRun (applyStrategySnapshot run s) decisionId :=
  ⟨h.decisionId, h.status, h.currentWaveIndex, h.startedAt⟩

theorem FreshRun.withStrategy {db : Db} {run run' : FleetBulkRun} (h : FreshRun run decisionId)
    {id : Option Nat} (hs : withStrategy db run id = .ok run') : FreshRun run' decisionId := by
  unfold Fleet.withStrategy at hs
  split at hs
  · cases hs
    exact h
  · split at hs
    · cases hs
      exact h.applyStrategySnapshot _
    · cases hs

theorem freshRun_cloneRun {db : Db} {original : FleetBulkRun} {rollout : Int × GateMode}
    {createdBy : String} :
    FreshRun (cloneRun db original decisionId rollout createdBy) decisionId := by
  unfold cloneRun
  dsimp only
  split
  · exact ⟨rfl, rfl, rfl, rfl⟩
  · split
    · exact ⟨rfl, rfl, rfl, rfl⟩
    · exact ⟨rfl, rfl, rfl, rfl⟩

private theorem findDecision_eq_ok {db : Db} {d : FleetDecision} :
    findDecision db decisionId = .ok d ↔ db.decisions[decisionId]? = some d := by
  unfold findDecision
  cases db.decisions[decisionId]? <;> simp

/-- `start_fleet_bulk_op` adds a run on a resolved decision all of whose members the user may
change. -/
theorem startFleetBulkOp_eq_ok (h : startFleetBulkOp w u decisionId body = .ok w') :
    ∃ decision run, w.db.decisions[decisionId]? = some decision ∧ decision.status = .resolved ∧
      requireFleetMutation w.db u
        (decision.projectId :: memberProjectIds w.db decision.resolvedMemberIds) = .ok () ∧
      FreshRun run decisionId ∧ w' = w.dispatchRun run := by
  unfold startFleetBulkOp at h
  obtain ⟨-, -, h⟩ := bind_eq_ok.mp h
  obtain ⟨-, -, h⟩ := bind_eq_ok.mp h
  obtain ⟨decision, hdecision, h⟩ := bind_eq_ok.mp h
  obtain ⟨hstatus, h⟩ := ite_error_eq_ok.mp h
  obtain ⟨⟨⟩, hrbac, h⟩ := bind_eq_ok.mp h
  obtain ⟨rollout, -, h⟩ := bind_eq_ok.mp h
  obtain ⟨run, hrun, h⟩ := bind_eq_ok.mp h
  cases h
  exact ⟨decision, run, findDecision_eq_ok.mp hdecision, not_not.mp hstatus, hrbac,
    (freshRun_newRun _ _ _ _ _).withStrategy hrun, rfl⟩

/-- `run_fleet_selection` adds a decision over members of the fleet that the user may change, and
a run on it unless the strategy is unknown. -/
theorem runFleetSelection_eq_ok {e : Option AppError}
    (h : runFleetSelection w u targetId memberIds body = .ok (w', e)) :
    ∃ target ids db, findTarget w.db targetId = .ok target ∧
      (∀ id ∈ ids, id ∈ fleetMemberIds w.db target) ∧
      requireFleetMutation w.db u (target.projectId :: memberProjectIds w.db ids) = .ok () ∧
      db = (decisionFromMemberIds w.db target ids u.username w.now).1 ∧
      (w' = { w with db } ∨
        ∃ run, FreshRun run w.db.decisions.length ∧ w' = { w with db }.dispatchRun run) := by
  unfold runFleetSelection at h
  obtain ⟨-, -, h⟩ := bind_eq_ok.mp h
  obtain ⟨target, htarget, h⟩ := bind_eq_ok.mp h
  obtain ⟨-, h⟩ := ite_error_eq_ok.mp h
  obtain ⟨-, -, h⟩ := bind_eq_ok.mp h
  obtain ⟨⟨⟩, hrbac, h⟩ := bind_eq_ok.mp h
  obtain ⟨rollout, -, h⟩ := bind_eq_ok.mp h
  refine ⟨target, _, _, htarget, fun id hid ↦ ?_, hrbac, rfl, ?_⟩
  · exact List.contains_iff_mem.mp (List.mem_filter.mp hid).2
  · dsimp only at h
    split at h
    · next run hrun =>
      cases h
      exact Or.inr ⟨run, (freshRun_newRun _ _ _ _ _).withStrategy hrun, rfl⟩
    · cases h
      exact Or.inl rfl

/-- `rerun_fleet_bulk_op` checks the members of the original decision, resolves the target anew, for
the user, and adds a run on the new decision. -/
theorem rerunFleetBulkOp_eq_ok (h : rerunFleetBulkOp w u runId = .ok w') :
    ∃ original decision target db d run, w.jobs[runId]? = some original ∧
      w.db.decisions[original.run.decisionId]? = some decision ∧
      findTarget w.db decision.targetId = .ok target ∧
      requireFleetMutation w.db u (original.run.projectId ::
        memberProjectIds w.db decision.resolvedMemberIds) = .ok () ∧
      resolveTarget w.db target u w.now = .ok (db, d) ∧
      FreshRun run w.db.decisions.length ∧ w' = { w with db }.dispatchRun run := by
  unfold rerunFleetBulkOp at h
  obtain ⟨-, -, h⟩ := bind_eq_ok.mp h
  split at h
  · cases h
  · next original horiginal =>
    obtain ⟨-, h⟩ := ite_error_eq_ok.mp h
    obtain ⟨decision, hdecision, h⟩ := bind_eq_ok.mp h
    obtain ⟨target, htarget, h⟩ := bind_eq_ok.mp h
    obtain ⟨⟨⟩, hrbac, h⟩ := bind_eq_ok.mp h
    obtain ⟨⟨db, d⟩, hresolve, h⟩ := bind_eq_ok.mp h
    cases h
    exact ⟨original, decision, target, db, d, _, horiginal, findDecision_eq_ok.mp hdecision,
      htarget, hrbac, hresolve, freshRun_cloneRun, rfl⟩

/-- `enforce_fleet_policy` does nothing, or it adds a decision over members that the user may see
and a run on it. -/
theorem enforceFleetPolicy_eq_ok (h : enforceFleetPolicy w u policyId = .ok w') :
    w' = w ∨ ∃ target ids run, (∀ id ∈ ids, ∃ m ∈ scopedMembers w.db u, m.id = id) ∧
      FreshRun run w.db.decisions.length ∧
      w' = { w with db := (decisionFromMemberIds w.db target ids u.username w.now).1 }.dispatchRun
        run := by
  unfold enforceFleetPolicy at h
  obtain ⟨-, -, h⟩ := bind_eq_ok.mp h
  split at h
  · cases h
  · next policy _ =>
    obtain ⟨-, -, h⟩ := bind_eq_ok.mp h
    unfold enforcePolicy at h
    obtain ⟨-, h⟩ := ite_error_eq_ok.mp h
    obtain ⟨-, h⟩ := ite_error_eq_ok.mp h
    split at h
    · cases h
    · next target _ =>
      obtain ⟨members, hmembers, h⟩ := bind_eq_ok.mp h
      dsimp only at h
      split at h
      · cases h
        exact Or.inl rfl
      · cases h
        refine Or.inr ⟨target, _, _, fun id hid ↦ ?_, freshRun_newRun _ _ _ _ _, rfl⟩
        obtain ⟨m, hm, rfl⟩ := List.mem_map.mp hid
        rw [resolveMemberIdsReadonly_eq] at hmembers
        cases hv : validateSelector target.selector with
        | error e =>
          rw [hv] at hmembers
          cases hmembers
        | ok =>
          rw [hv] at hmembers
          cases hmembers
          exact ⟨m, (List.mem_filter.mp (List.mem_filter.mp hm).1).1, rfl⟩

/-- `resolve_target` adds a decision over what the target denotes. -/
theorem resolveTarget_eq_ok {db db' : Db} {target : FleetTarget} {now : Int} {d : FleetDecision}
    (h : resolveTarget db target u now = .ok (db', d)) :
    db' = (decisionFromMemberIds db target
      ((resolveMembers db u target.selector.labelFilters target.pinnedMemberIds).map
        FleetMember.id) u.username now).1 := by
  unfold resolveTarget at h
  obtain ⟨-, -, h⟩ := bind_eq_ok.mp h
  cases h
  rfl

end Routes

end BnkForge.Fleet
