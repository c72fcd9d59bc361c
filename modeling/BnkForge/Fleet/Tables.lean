import Mathlib.Data.List.Nodup

/-!
# The tables of the fleet

The rows that targets are resolved in and bulk runs work on (`backend/models/fleet.py`,
`backend/models/fleet_targeting.py`, `backend/models/fleet_policy.py`). Tables are lists of rows;
decisions are named by their position. JSON columns that are null read as empty, and label values
are texts. Member ids come from a sequence, so none is given out twice.
-/

namespace BnkForge.Fleet

/-! ### Users and projects -/

/-- The roles of a user. -/
inductive Role
  | viewer
  | operator
  | admin
  deriving DecidableEq, Repr

structure User where
  id : Nat
  username : String
  role : Role
  requestRole : Option Role
  deriving DecidableEq, Repr

/-- `effective_role`; `backend/core/auth_context.py:30`. -/
def effectiveRole (u : User) : Role := u.requestRole.getD u.role

/-- What holds a run back between two waves. -/
inductive GateMode
  | healthStable
  | manual
  | approval
  | timedWait
  | other (text : String)
  deriving DecidableEq, Repr

structure Project where
  id : Nat
  userId : Option Nat
  fleetDefaultConcurrency : Option Int
  fleetDefaultGateMode : Option GateMode
  deriving DecidableEq, Repr

/-! ### Members and targets -/

abbrev Labels := List (String × String)

/-- A `FleetMember` row. -/
structure FleetMember where
  id : Nat
  projectId : Option Nat
  memberType : String
  name : String
  discoveredLabels : Labels
  assignedLabels : Labels
  faultDomain : Option String
  healthStatus : Option String
  /-- `last_reconciled_at` is set. -/
  reconciled : Bool
  deriving DecidableEq, Repr

def FleetMember.label (m : FleetMember) (key : String) : Option String :=
  (m.assignedLabels.lookup key).or (m.discoveredLabels.lookup key)

/-- The `labels` entry of a selector, where it is neither missing nor empty. -/
inductive LabelsJson
  | list (filters : List String)
  | notList
  deriving DecidableEq, Repr

inductive Selector
  | object (labels : Option LabelsJson)
  | notObject
  deriving DecidableEq, Repr

/-- A `FleetTarget` row. -/
structure FleetTarget where
  id : Nat
  projectId : Option Nat
  selector : Selector
  pinnedMemberIds : List Nat
  deleted : Bool
  deriving DecidableEq, Repr

inductive DecisionStatus
  | resolved
  | consumed
  | superseded
  deriving DecidableEq, Repr

/-- A `FleetDecision` row. -/
structure FleetDecision where
  targetId : Nat
  projectId : Option Nat
  resolvedMemberIds : List Nat
  resolvedAt : Int
  resolvedBy : String
  status : DecisionStatus
  deriving DecidableEq, Repr

/-! ### Bulk runs -/

/-- How members are put into waves. -/
inductive WaveBy
  | faultDomain
  | label (key : String)
  deriving DecidableEq, Repr

inductive Action
  | reReconcile
  | setLabels
  | other (name : String)
  deriving DecidableEq, Repr

/-- `SAFE_ACTIONS`. -/
def Action.safe : Action → Bool
  | .reReconcile | .setLabels => true
  | .other _ => false

inductive BulkRunStatus
  | pending
  | running
  | pausedGate
  | completed
  | failed
  | cancelled
  deriving DecidableEq, Repr

/-- `BULK_RUN_TERMINAL_STATUSES`. -/
def BulkRunStatus.terminal : BulkRunStatus → Bool
  | .completed | .failed | .cancelled => true
  | .pending | .running | .pausedGate => false

inductive RunError
  | decisionNotFound
  | actionNotSafe
  | decisionStatus (status : DecisionStatus)
  | decisionStale (age : Int)
  | membersMissing (missing : List Nat)
  | raised (message : String)
  deriving DecidableEq, Repr

/-- A `FleetBulkRun` row. -/
structure FleetBulkRun where
  decisionId : Nat
  projectId : Option Nat
  action : Action
  /-- The `labels` of `action_params`. -/
  actionLabels : Labels
  waveBy : WaveBy
  concurrency : Int
  gateMode : GateMode
  strategyId : Option Nat
  status : BulkRunStatus
  currentWaveIndex : Nat
  totalWaves : Option Nat
  errorMessage : Option RunError
  startedAt : Option Int
  createdBy : String
  deriving DecidableEq, Repr

/-- A `FleetOperationStrategy` row. -/
structure FleetOperationStrategy where
  id : Nat
  waveBy : WaveBy
  gateKind : GateMode
  deleted : Bool
  deriving DecidableEq, Repr

inductive PolicyKind
  | labelCompliance
  | osComplianceSeed
  | other (name : String)
  deriving DecidableEq, Repr

/-- A `FleetPolicy` row. -/
structure FleetPolicy where
  id : Nat
  projectId : Option Nat
  targetId : Nat
  kind : PolicyKind
  /-- The mode is enforce, not inform. -/
  enforces : Bool
  requiredLabels : List String
  deleted : Bool
  deriving DecidableEq, Repr

inductive AppError
  | validation (field message : String)
  | notFound (resource identifier : String)
  | badRequest (message : String)
  | conflict (resource message : String)
  | forbidden
  deriving DecidableEq, Repr

/-! ### The database -/

/-- The tables, with the keys that the database enforces: member ids are unique and below the
sequence, and the project of a member exists. -/
structure Db where
  projects : List Project
  members : List FleetMember
  targets : List FleetTarget
  decisions : List FleetDecision
  strategies : List FleetOperationStrategy
  policies : List FleetPolicy
  nextMemberId : Nat
  members_nodup : (members.map FleetMember.id).Nodup
  members_lt : ∀ m ∈ members, m.id < nextMemberId
  members_project : ∀ m ∈ members, m.projectId.all (projects.map Project.id).contains = true

namespace Db

variable (db : Db)

/-- The project of the row exists. -/
def KnowsProject (m : FleetMember) : Prop :=
  m.projectId.all (db.projects.map Project.id).contains = true

instance (m : FleetMember) : Decidable (db.KnowsProject m) :=
  inferInstanceAs (Decidable (_ = true))

theorem eq_of_id {db : Db} {a b : FleetMember} (ha : a ∈ db.members) (hb : b ∈ db.members)
    (h : a.id = b.id) : a = b :=
  List.inj_on_of_nodup_map db.members_nodup ha hb h

private theorem map_id_replace (members : List FleetMember) (m : FleetMember) :
    (members.map fun x ↦ if x.id = m.id then m else x).map FleetMember.id =
      members.map FleetMember.id := by
  rw [List.map_map]
  refine List.map_congr_left fun x _ ↦ ?_
  by_cases h : x.id = m.id
  · simp [h]
  · simp [h]

/-- Replace the row that has the id of `m`. -/
def setMember (m : FleetMember) (h : db.KnowsProject m) : Db :=
  { db with
    members := db.members.map fun x ↦ if x.id = m.id then m else x
    members_nodup := by
      rw [map_id_replace]
      exact db.members_nodup
    members_lt := by
      intro y hy
      have hid := List.mem_map_of_mem (f := FleetMember.id) hy
      rw [map_id_replace] at hid
      obtain ⟨x, hx, hxy⟩ := List.mem_map.mp hid
      exact hxy ▸ db.members_lt x hx
    members_project := by
      intro y hy
      obtain ⟨x, hx, rfl⟩ := List.mem_map.mp hy
      split
      · exact h
      · exact db.members_project x hx }

def addMember (m : FleetMember) (h : db.KnowsProject m) : Db :=
  { db with
    members := db.members ++ [{ m with id := db.nextMemberId }]
    nextMemberId := db.nextMemberId + 1
    members_nodup := by
      rw [List.map_append, List.nodup_append]
      refine ⟨db.members_nodup, List.nodup_singleton _, ?_⟩
      intro a ha b hb hab
      obtain ⟨x, hx, rfl⟩ := List.mem_map.mp ha
      have hlt := db.members_lt x hx
      have hb : b = db.nextMemberId := List.mem_singleton.mp hb
      omega
    members_lt := by
      intro y hy
      rcases List.mem_append.mp hy with hy | hy
      · exact Nat.lt_succ_of_lt (db.members_lt y hy)
      · rw [List.mem_singleton.mp hy]
        exact Nat.lt_succ_self _
    members_project := by
      intro y hy
      rcases List.mem_append.mp hy with hy | hy
      · exact db.members_project y hy
      · rw [List.mem_singleton.mp hy]
        exact h }

def removeMember (id : Nat) : Db :=
  { db with
    members := db.members.filter fun m ↦ m.id != id
    members_nodup := db.members_nodup.sublist (List.filter_sublist.map _)
    members_lt := fun m hm ↦ db.members_lt m (List.mem_filter.mp hm).1
    members_project := fun m hm ↦ db.members_project m (List.mem_filter.mp hm).1 }

def putProject (p : Project) : Db :=
  { db with
    projects := db.projects.filter (fun q ↦ q.id != p.id) ++ [p]
    members_project := by
      intro m hm
      have h := db.members_project m hm
      cases hp : m.projectId with
      | none => rfl
      | some pid =>
        rw [hp] at h
        simp only [Option.all_some, List.contains_iff_mem, List.mem_map] at h ⊢
        obtain ⟨q, hq, rfl⟩ := h
        by_cases hid : q.id = p.id
        · exact ⟨p, List.mem_append_right _ (List.mem_singleton.mpr rfl), hid.symm⟩
        · exact ⟨q, List.mem_append_left _ (List.mem_filter.mpr ⟨hq, by simpa using hid⟩), rfl⟩ }

def removeProject (projectId : Nat) : Db :=
  { db with
    projects := db.projects.filter fun q ↦ q.id != projectId
    members := db.members.filter fun m ↦ m.projectId != some projectId
    members_nodup := db.members_nodup.sublist (List.filter_sublist.map _)
    members_lt := fun m hm ↦ db.members_lt m (List.mem_filter.mp hm).1
    members_project := by
      intro m hm
      obtain ⟨hm, hne⟩ := List.mem_filter.mp hm
      have h := db.members_project m hm
      cases hp : m.projectId with
      | none => rfl
      | some pid =>
        rw [hp] at h hne
        simp only [Option.all_some, List.contains_iff_mem, List.mem_map] at h ⊢
        obtain ⟨q, hq, rfl⟩ := h
        exact ⟨q, List.mem_filter.mpr ⟨hq, by simpa using hne⟩, rfl⟩ }

/-- Write a target, new or known; a deleted target keeps its row. -/
def putTarget (t : FleetTarget) : Db :=
  { db with targets := db.targets.filter (fun x ↦ x.id != t.id) ++ [t] }

def putStrategy (s : FleetOperationStrategy) : Db :=
  { db with strategies := db.strategies.filter (fun x ↦ x.id != s.id) ++ [s] }

def putPolicy (p : FleetPolicy) : Db :=
  { db with policies := db.policies.filter (fun x ↦ x.id != p.id) ++ [p] }

def setDecisionStatus (decisionId : Nat) (status : DecisionStatus) : Db :=
  { db with decisions := db.decisions.modify decisionId fun d ↦ { d with status } }

end Db

end BnkForge.Fleet
