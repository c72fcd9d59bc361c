import BnkForge.Fleet.Tables

/-!
# Fleet targets and their members

The label selector and its validation, and the five places that turn a target into members:
`resolve_target` (`backend/services/fleet_selector.py:37–188`), `preview_selector`,
`get_fleet_members_by_fleet`, `_compute_fleet_rollup` (`backend/routes/fleet.py:324–432`,
`:807–853`) and `_resolve_member_ids_readonly` (`backend/services/fleet_policy_service.py:83–110`).
-/

namespace BnkForge.Fleet

open List

/-! ### Selectors -/

/-- `FORBIDDEN_SELECTOR_KEYS`, sorted. -/
def forbiddenSelectorKeys : List String := ["member_id", "member_type", "project_id"]

/-- `text.partition("=")`, `none` where there is no equals sign. -/
def partitionEq (text : String) : Option (String × String) :=
  match text.toList.span (· != '=') with
  | (key, _ :: value) => some (String.ofList key, String.ofList value)
  | (_, []) => none

/-- `matches_selector`; `backend/services/fleet_selector.py:37`. -/
def matchesSelector (m : FleetMember) (labelFilters : List String) : Bool :=
  labelFilters.all fun f ↦
    match partitionEq f with
    | none => true
    | some (key, value) => m.label key == some value

/-- `selector.get("labels") or []`. -/
def Selector.labelFilters : Selector → List String
  | .object (some (.list filters)) => filters
  | _ => []

def forbiddenKey (labelFilters : List String) : Option String :=
  labelFilters.findSome? fun f ↦ (partitionEq f).bind fun x ↦
    if forbiddenSelectorKeys.contains x.1 then some x.1 else none

/-- `validate_selector`; `backend/services/fleet_selector.py:62`. -/
def validateSelector : Selector → Except AppError Unit
  | .notObject =>
    .error (.validation "selector" "Selector must be a JSON object with a 'labels' key.")
  | .object (some .notList) =>
    .error (.validation "selector.labels" "selector.labels must be a list of 'key=value' strings.")
  | selector =>
    match forbiddenKey selector.labelFilters with
    | some key =>
      .error (.validation "selector" (s!"Forbidden selector key '{key}'. " ++
        "Keys ['member_id', 'member_type', 'project_id'] may not be used as label selectors."))
    | none => .ok ()

/-! ### Resolving -/

section Resolve

variable (db : Db) (u : User)

/-- `_get_owned_project_ids`, `none` for admins. -/
def ownedProjectIds : Option (List Nat) :=
  if effectiveRole u = .admin then none
  else some ((db.projects.filter fun p ↦ p.userId == some u.id).map Project.id)

def scopedMembers : List FleetMember :=
  match ownedProjectIds db u with
  | none => db.members
  | some ids => db.members.filter fun m ↦ m.projectId.any ids.contains

def mergePinned (matched : List FleetMember) : List Nat → List FleetMember
  | [] => matched
  | pid :: pinned =>
    if matched.any (·.id == pid) then mergePinned matched pinned
    else
      match db.members.find? (·.id == pid) with
      | some extra => mergePinned (matched ++ [extra]) pinned
      | none => mergePinned matched pinned

/-- The members that `resolve_target` takes into a decision. -/
def resolveMembers (labelFilters : List String) (pinned : List Nat) : List FleetMember :=
  if labelFilters = [] ∧ pinned = [] then []
  else
    mergePinned db
      (if labelFilters = [] then []
      else (scopedMembers db u).filter fun m ↦ matchesSelector m labelFilters) pinned

def readMembers (order : FleetMember → FleetMember → Bool) (labelFilters : List String)
    (pinned : List Nat) : List FleetMember :=
  if labelFilters = [] ∧ pinned = [] then []
  else
    let matched :=
      if labelFilters = [] then []
      else ((scopedMembers db u).mergeSort order).filter fun m ↦ matchesSelector m labelFilters
    let extraIds := pinned.filter fun pid ↦ !matched.any (·.id == pid)
    matched ++ db.members.filter fun m ↦ extraIds.contains m.id

/-- `ORDER BY member_type, name`. -/
def byTypeAndName (a b : FleetMember) : Bool :=
  if a.memberType = b.memberType then decide (a.name ≤ b.name)
  else decide (a.memberType ≤ b.memberType)

/-- `ORDER BY id`. -/
def byId (a b : FleetMember) : Bool := decide (a.id ≤ b.id)

def findTarget (fleetId : Nat) : Except AppError FleetTarget :=
  match db.targets.find? fun t ↦ t.id == fleetId && !t.deleted with
  | some target => .ok target
  | none => .error (.notFound "FleetTarget" (toString fleetId))

/-- The matched members of `preview_selector`, of which it returns the number and a sample. -/
def previewSelector (selector : Selector) (pinned : List Nat) :
    Except AppError (List FleetMember) := do
  validateSelector selector
  return readMembers db u byTypeAndName selector.labelFilters pinned

/-- `get_fleet_members_by_fleet`. -/
def getFleetMembersByFleet (fleetId : Nat) : Except AppError (List FleetMember) := do
  let target ← findTarget db fleetId
  return readMembers db u byTypeAndName target.selector.labelFilters target.pinnedMemberIds

/-- The members that `_compute_fleet_rollup` counts. -/
def computeFleetRollup (fleetId : Nat) : Except AppError (List FleetMember) := do
  let target ← findTarget db fleetId
  return readMembers db u byId target.selector.labelFilters target.pinnedMemberIds

/-- `_resolve_member_ids_readonly`. -/
def resolveMemberIdsReadonly (target : FleetTarget) : Except AppError (List FleetMember) := do
  validateSelector target.selector
  return (scopedMembers db u).filter fun m ↦ matchesSelector m target.selector.labelFilters

end Resolve

def priorDecisions (db : Db) (targetId : Nat) : List Nat :=
  (List.range db.decisions.length).filter fun i ↦
    db.decisions[i]?.any fun d ↦ d.targetId == targetId && d.status == .resolved

def recordDecision (db : Db) (prior : List Nat) (decision : FleetDecision) : Db :=
  { db with
    decisions := (db.decisions.mapIdx fun i d ↦
      if prior.contains i then { d with status := .superseded } else d) ++ [decision] }

/-- A decision over the given members; `decision_from_member_ids` without its writes. -/
def newDecision (target : FleetTarget) (memberIds : List Nat) (resolvedBy : String) (now : Int) :
    FleetDecision :=
  ⟨target.id, target.projectId, memberIds, now, resolvedBy, .resolved⟩

/-- `decision_from_member_ids`; `backend/services/fleet_selector.py:190`. -/
def decisionFromMemberIds (db : Db) (target : FleetTarget) (memberIds : List Nat)
    (resolvedBy : String) (now : Int) : Db × FleetDecision :=
  let decision := newDecision target memberIds resolvedBy now
  (recordDecision db (priorDecisions db target.id) decision, decision)

/-- `resolve_target`; `backend/services/fleet_selector.py:100`. -/
def resolveTarget (db : Db) (target : FleetTarget) (u : User) (now : Int) :
    Except AppError (Db × FleetDecision) := do
  validateSelector target.selector
  let memberIds :=
    (resolveMembers db u target.selector.labelFilters target.pinnedMemberIds).map FleetMember.id
  return decisionFromMemberIds db target memberIds u.username now

/-! ### What a target denotes -/

section Denotes

variable {db : Db} {u : User} {labelFilters : List String} {pinned : List Nat}

def Denotes (db : Db) (u : User) (labelFilters : List String) (pinned : List Nat)
    (m : FleetMember) : Prop :=
  m ∈ db.members ∧
    (m.id ∈ pinned ∨
      labelFilters ≠ [] ∧ m ∈ scopedMembers db u ∧ matchesSelector m labelFilters = true)

theorem mem_of_mem_scopedMembers {m : FleetMember} (h : m ∈ scopedMembers db u) :
    m ∈ db.members := by
  unfold scopedMembers at h
  split at h
  · exact h
  · exact (mem_filter.mp h).1

private theorem mem_selected {m : FleetMember} :
    m ∈ (if labelFilters = [] then []
      else (scopedMembers db u).filter fun m ↦ matchesSelector m labelFilters) ↔
    labelFilters ≠ [] ∧ m ∈ scopedMembers db u ∧ matchesSelector m labelFilters = true := by
  by_cases h : labelFilters = [] <;> simp [h]

theorem mem_mergePinned {matched : List FleetMember} (hsub : ∀ m ∈ matched, m ∈ db.members)
    (m : FleetMember) :
    m ∈ mergePinned db matched pinned ↔ m ∈ matched ∨ m ∈ db.members ∧ m.id ∈ pinned := by
  induction pinned generalizing matched with
  | nil => simp [mergePinned]
  | cons pid pinned ih =>
    unfold mergePinned
    split
    · next hany =>
      obtain ⟨x, hx, hid⟩ := any_eq_true.mp hany
      rw [ih hsub, mem_cons]
      constructor
      · rintro (h | ⟨h, hp⟩)
        · exact Or.inl h
        · exact Or.inr ⟨h, Or.inr hp⟩
      · rintro (h | ⟨h, rfl | hp⟩)
        · exact Or.inl h
        · -- the row is the one that made the guard true
          exact Or.inl (db.eq_of_id (hsub x hx) h (eq_of_beq hid) ▸ hx)
        · exact Or.inr ⟨h, hp⟩
    · split
      · next extra hfind =>
        have hmem := mem_of_find?_eq_some hfind
        have hid : extra.id = pid := by simpa using find?_some hfind
        have hsub' : ∀ m ∈ matched ++ [extra], m ∈ db.members := by
          intro a ha
          rcases mem_append.mp ha with ha | ha
          · exact hsub a ha
          · exact mem_singleton.mp ha ▸ hmem
        rw [ih hsub', mem_append, mem_singleton, mem_cons]
        constructor
        · rintro ((h | rfl) | ⟨h, hp⟩)
          · exact Or.inl h
          · exact Or.inr ⟨hmem, Or.inl hid⟩
          · exact Or.inr ⟨h, Or.inr hp⟩
        · rintro (h | ⟨h, rfl | hp⟩)
          · exact Or.inl (Or.inl h)
          · exact Or.inl (Or.inr (db.eq_of_id h hmem hid.symm))
          · exact Or.inr ⟨h, hp⟩
      · next hnone =>
        have habsent : m ∈ db.members → m.id ≠ pid := by
          intro h hid
          exact find?_eq_none.mp hnone m h (beq_iff_eq.mpr hid)
        rw [ih hsub, mem_cons]
        constructor
        · rintro (h | ⟨h, hp⟩)
          · exact Or.inl h
          · exact Or.inr ⟨h, Or.inr hp⟩
        · rintro (h | ⟨h, hid | hp⟩)
          · exact Or.inl h
          · exact absurd hid (habsent h)
          · exact Or.inr ⟨h, hp⟩

/-- What `resolve_target` takes is what the target denotes. -/
theorem mem_resolveMembers (m : FleetMember) :
    m ∈ resolveMembers db u labelFilters pinned ↔ Denotes db u labelFilters pinned m := by
  unfold resolveMembers Denotes
  split
  · next h => simp [h.1, h.2]
  · rw [mem_mergePinned, mem_selected]
    · constructor
      · rintro (h | h)
        · exact ⟨mem_of_mem_scopedMembers h.2.1, Or.inr h⟩
        · exact ⟨h.1, Or.inl h.2⟩
      · rintro ⟨hm, h | h⟩
        · exact Or.inr ⟨hm, h⟩
        · exact Or.inl h
    · intro a ha
      exact mem_of_mem_scopedMembers (mem_selected.mp ha).2.1

theorem mem_readMembers (order : FleetMember → FleetMember → Bool) (m : FleetMember) :
    m ∈ readMembers db u order labelFilters pinned ↔ Denotes db u labelFilters pinned m := by
  unfold readMembers Denotes
  split
  · next h => simp [h.1, h.2]
  · -- sorting the query does not change what the selector finds
    have hsel : ∀ a, a ∈ (if labelFilters = [] then []
        else ((scopedMembers db u).mergeSort order).filter fun m ↦
          matchesSelector m labelFilters) ↔
        labelFilters ≠ [] ∧ a ∈ scopedMembers db u ∧ matchesSelector a labelFilters = true := by
      intro a
      by_cases h : labelFilters = [] <;> simp [h, mem_mergeSort]
    generalize (if labelFilters = [] then []
      else ((scopedMembers db u).mergeSort order).filter fun m ↦
        matchesSelector m labelFilters) = matched at hsel
    simp only [mem_append, mem_filter, contains_iff_mem, Bool.not_eq_true',
      any_eq_false, beq_iff_eq]
    constructor
    · rintro (h | ⟨hm, hp, -⟩)
      · have h := (hsel m).mp h
        exact ⟨mem_of_mem_scopedMembers h.2.1, Or.inr h⟩
      · exact ⟨hm, Or.inl hp⟩
    · rintro ⟨hm, hp | h⟩
      · by_cases hin : m ∈ matched
        · exact Or.inl hin
        · refine Or.inr ⟨hm, hp, fun x hx hid ↦ hin ?_⟩
          have hx' := mem_of_mem_scopedMembers ((hsel x).mp hx).2.1
          exact db.eq_of_id hx' hm hid ▸ hx
      · exact Or.inl ((hsel m).mpr h)

end Denotes

/-! ### What a user may learn -/

def Owns (projects : List Project) (u : User) (projectId : Nat) : Prop :=
  ∃ p ∈ projects, p.id = projectId ∧ p.userId = some u.id

def Foreign (projects : List Project) (u : User) (m : FleetMember) : Prop :=
  ∃ projectId, m.projectId = some projectId ∧ ¬ Owns projects u projectId

/-- Both runs fail with one error, or both return and their elements are the same. -/
def SameSet {α : Type} : Except AppError (List α) → Except AppError (List α) → Prop
  | .ok xs, .ok ys => ∀ x, x ∈ xs ↔ x ∈ ys
  | .error e, .error e' => e = e'
  | _, _ => False

/-- The ids of the decision that `resolve_target` returns. -/
def resolvedIds (db : Db) (target : FleetTarget) (u : User) (now : Int) :
    Except AppError (List Nat) :=
  (resolveTarget db target u now).map fun x ↦ x.2.resolvedMemberIds

/-- The two databases differ at most in members of projects that the user does not own. -/
structure AgreeOutside (u : User) (db₁ db₂ : Db) : Prop where
  projects : db₂.projects = db₁.projects
  targets : db₂.targets = db₁.targets
  decisions : db₂.decisions = db₁.decisions
  members : ∀ m, ¬ Foreign db₁.projects u m → (m ∈ db₁.members ↔ m ∈ db₂.members)

/-- The four functions return one member set for the target in both databases. -/
structure SameMembers (u : User) (target : FleetTarget) (db₁ db₂ : Db) : Prop where
  resolve : ∀ now, SameSet (resolvedIds db₁ target u now) (resolvedIds db₂ target u now)
  preview : SameSet (previewSelector db₁ u target.selector target.pinnedMemberIds)
    (previewSelector db₂ u target.selector target.pinnedMemberIds)
  members : findTarget db₁ target.id = .ok target →
    SameSet (getFleetMembersByFleet db₁ u target.id) (getFleetMembersByFleet db₂ u target.id)
  rollup : findTarget db₁ target.id = .ok target →
    SameSet (computeFleetRollup db₁ u target.id) (computeFleetRollup db₂ u target.id)

section Visibility

variable {u : User} {db db₁ db₂ : Db} {target : FleetTarget}

theorem mem_scopedMembers (hu : effectiveRole u ≠ .admin) (m : FleetMember) :
    m ∈ scopedMembers db u ↔
      m ∈ db.members ∧ ∃ projectId, m.projectId = some projectId ∧
        Owns db.projects u projectId := by
  unfold scopedMembers ownedProjectIds
  rw [if_neg hu]
  simp only [mem_filter, Option.any_eq_true, contains_iff_mem, mem_map, beq_iff_eq,
    Owns]
  constructor
  · rintro ⟨hm, pid, hpid, p, ⟨hp, hown⟩, hid⟩
    exact ⟨hm, pid, hpid, p, hp, hid, hown⟩
  · rintro ⟨hm, pid, hpid, p, hp, hid, hown⟩
    exact ⟨hm, pid, hpid, p, ⟨hp, hown⟩, hid⟩

private theorem not_foreign_of_owns {m : FleetMember} {projectId : Nat}
    (hp : m.projectId = some projectId) (hown : Owns db.projects u projectId) :
    ¬ Foreign db.projects u m := by
  rintro ⟨pid, hpid, hnot⟩
  rw [hp, Option.some.injEq] at hpid
  exact hnot (hpid ▸ hown)

private theorem AgreeOutside.mem_scopedMembers_iff (hu : effectiveRole u ≠ .admin)
    (h : AgreeOutside u db₁ db₂) (m : FleetMember) :
    m ∈ scopedMembers db₁ u ↔ m ∈ scopedMembers db₂ u := by
  rw [mem_scopedMembers hu, mem_scopedMembers hu, h.projects]
  constructor
  · rintro ⟨hm, pid, hpid, hown⟩
    exact ⟨(h.members m (not_foreign_of_owns hpid hown)).mp hm, pid, hpid, hown⟩
  · rintro ⟨hm, pid, hpid, hown⟩
    exact ⟨(h.members m (not_foreign_of_owns hpid hown)).mpr hm, pid, hpid, hown⟩

def PinnedAlike (u : User) (pinned : List Nat) (db₁ db₂ : Db) : Prop :=
  ∀ m, Foreign db₁.projects u m → m.id ∈ pinned → (m ∈ db₁.members ↔ m ∈ db₂.members)

theorem AgreeOutside.denotes_iff (hu : effectiveRole u ≠ .admin) (h : AgreeOutside u db₁ db₂)
    (labelFilters : List String) (pinned : List Nat) :
    (∀ m, Denotes db₁ u labelFilters pinned m ↔ Denotes db₂ u labelFilters pinned m) ↔
      PinnedAlike u pinned db₁ db₂ := by
  constructor
  · intro hsame m _ hp
    constructor
    · intro hm
      exact ((hsame m).mp ⟨hm, Or.inl hp⟩).1
    · intro hm
      exact ((hsame m).mpr ⟨hm, Or.inl hp⟩).1
  · intro hpin m
    have hpinned : m.id ∈ pinned → (m ∈ db₁.members ↔ m ∈ db₂.members) := by
      intro hp
      by_cases hf : Foreign db₁.projects u m
      · exact hpin m hf hp
      · exact h.members m hf
    unfold Denotes
    constructor
    · rintro ⟨hm, hp | ⟨hne, hs, hmatch⟩⟩
      · exact ⟨(hpinned hp).mp hm, Or.inl hp⟩
      · have hs := (h.mem_scopedMembers_iff hu m).mp hs
        exact ⟨mem_of_mem_scopedMembers hs, Or.inr ⟨hne, hs, hmatch⟩⟩
    · rintro ⟨hm, hp | ⟨hne, hs, hmatch⟩⟩
      · exact ⟨(hpinned hp).mpr hm, Or.inl hp⟩
      · have hs := (h.mem_scopedMembers_iff hu m).mpr hs
        exact ⟨mem_of_mem_scopedMembers hs, Or.inr ⟨hne, hs, hmatch⟩⟩

theorem previewSelector_eq (selector : Selector) (pinned : List Nat) :
    previewSelector db u selector pinned =
      (validateSelector selector).map fun _ ↦
        readMembers db u byTypeAndName selector.labelFilters pinned := by
  unfold previewSelector
  cases validateSelector selector <;> rfl

theorem resolvedIds_eq (now : Int) :
    resolvedIds db target u now =
      (validateSelector target.selector).map fun _ ↦
        (resolveMembers db u target.selector.labelFilters target.pinnedMemberIds).map
          FleetMember.id := by
  unfold resolvedIds resolveTarget
  cases validateSelector target.selector <;> rfl

theorem getFleetMembersByFleet_of_found {fleetId : Nat} (h : findTarget db fleetId = .ok target) :
    getFleetMembersByFleet db u fleetId =
      .ok (readMembers db u byTypeAndName target.selector.labelFilters
        target.pinnedMemberIds) := by
  unfold getFleetMembersByFleet
  rw [h]
  rfl

theorem computeFleetRollup_of_found {fleetId : Nat} (h : findTarget db fleetId = .ok target) :
    computeFleetRollup db u fleetId =
      .ok (readMembers db u byId target.selector.labelFilters target.pinnedMemberIds) := by
  unfold computeFleetRollup
  rw [h]
  rfl

private theorem AgreeOutside.sameSet_readMembers_iff (hu : effectiveRole u ≠ .admin)
    (h : AgreeOutside u db₁ db₂) (order : FleetMember → FleetMember → Bool)
    (labelFilters : List String) (pinned : List Nat) :
    SameSet (.ok (readMembers db₁ u order labelFilters pinned))
      (.ok (readMembers db₂ u order labelFilters pinned)) ↔ PinnedAlike u pinned db₁ db₂ := by
  rw [← h.denotes_iff hu labelFilters]
  simp only [SameSet, mem_readMembers]

private theorem AgreeOutside.sameSet_resolvedIds (hu : effectiveRole u ≠ .admin)
    (h : AgreeOutside u db₁ db₂)
    (hpin : validateSelector target.selector = .ok () →
      PinnedAlike u target.pinnedMemberIds db₁ db₂) (now : Int) :
    SameSet (resolvedIds db₁ target u now) (resolvedIds db₂ target u now) := by
  rw [resolvedIds_eq, resolvedIds_eq]
  cases hv : validateSelector target.selector with
  | error e => exact rfl
  | ok =>
    have hsame := (h.denotes_iff hu target.selector.labelFilters _).mpr (hpin hv)
    intro id
    simp only [mem_map, mem_resolveMembers, hsame]

private theorem AgreeOutside.findTarget_eq (h : AgreeOutside u db₁ db₂) (fleetId : Nat) :
    findTarget db₂ fleetId = findTarget db₁ fleetId := by
  rw [findTarget, findTarget, h.targets]

/-- A target that can be read at all denotes one member set in both databases exactly where the
pinned members of other users' projects are the same. -/
theorem sameMembers_iff_pinnedAlike (hu : effectiveRole u ≠ .admin)
    (h : AgreeOutside u db₁ db₂) :
    SameMembers u target db₁ db₂ ↔
      (validateSelector target.selector = .ok () ∨ findTarget db₁ target.id = .ok target →
        PinnedAlike u target.pinnedMemberIds db₁ db₂) := by
  constructor
  · rintro hsame (hv | hfound)
    · have hprev := hsame.preview
      rw [previewSelector_eq, previewSelector_eq, hv] at hprev
      exact (h.sameSet_readMembers_iff hu _ _ _).mp hprev
    · have hmem := hsame.members hfound
      rw [getFleetMembersByFleet_of_found hfound,
        getFleetMembersByFleet_of_found ((h.findTarget_eq _).trans hfound)] at hmem
      exact (h.sameSet_readMembers_iff hu _ _ _).mp hmem
  · intro hpin
    constructor
    · exact h.sameSet_resolvedIds hu fun hv ↦ hpin (Or.inl hv)
    · rw [previewSelector_eq, previewSelector_eq]
      cases hv : validateSelector target.selector with
      | error e => exact rfl
      | ok => exact (h.sameSet_readMembers_iff hu _ _ _).mpr (hpin (Or.inl hv))
    · intro hfound
      rw [getFleetMembersByFleet_of_found hfound,
        getFleetMembersByFleet_of_found ((h.findTarget_eq _).trans hfound)]
      exact (h.sameSet_readMembers_iff hu _ _ _).mpr (hpin (Or.inr hfound))
    · intro hfound
      rw [computeFleetRollup_of_found hfound,
        computeFleetRollup_of_found ((h.findTarget_eq _).trans hfound)]
      exact (h.sameSet_readMembers_iff hu _ _ _).mpr (hpin (Or.inr hfound))

end Visibility

/-- An operator with id 1. -/
def alice : User := ⟨1, "alice", .operator, none⟩

/-- Cluster 10, of project 5, which bob owns. -/
def bobCluster : FleetMember :=
  ⟨10, some 5, "cluster", "edge-1", [("site", "ber")], [], none, some "healthy", true⟩

/-- A fleet without a selector that pins member 10. -/
def pinningTarget : FleetTarget := ⟨1, none, .object none, [10], false⟩

/-- Project 5 of bob with at most one cluster, and the pinning fleet. -/
def pinnedDb (id : Option Nat) : Db where
  projects := [⟨5, some 2, none, none⟩]
  members := id.toList.map fun i ↦ { bobCluster with id := i }
  targets := [pinningTarget]
  decisions := []
  strategies := []
  policies := []
  nextMemberId := id.getD 0 + 1
  members_nodup := by cases id <;> simp
  members_lt := by cases id <;> simp
  members_project := by cases id <;> simp [bobCluster]

private theorem agreeOutside_pinnedDb (id : Option Nat) :
    AgreeOutside alice (pinnedDb id) (pinnedDb none) := by
  refine ⟨rfl, rfl, rfl, fun m hm ↦ ⟨fun hin ↦ absurd ?_ hm, fun hin ↦ (not_mem_nil hin).elim⟩⟩
  obtain ⟨i, -, rfl⟩ := mem_map.mp hin
  refine ⟨5, rfl, ?_⟩
  rintro ⟨p, hp, -, hown⟩
  cases mem_singleton.mp hp
  exact absurd hown (by decide)

theorem sameMembers_iff_pinnedAlike_unpinned :
    SameMembers alice pinningTarget (pinnedDb (some 11)) (pinnedDb none) := by
  refine (sameMembers_iff_pinnedAlike (by decide) (agreeOutside_pinnedDb _)).mpr
    fun _ m _ hp ↦ ⟨fun hin ↦ ?_, fun hin ↦ (List.not_mem_nil hin).elim⟩
  -- member 11 is not pinned
  cases List.mem_singleton.mp hin
  exact absurd hp (by decide)

/-- Pinning another user's member shows whether it is there. -/
theorem pinnedMember_interferes :
    effectiveRole alice ≠ .admin ∧ AgreeOutside alice (pinnedDb (some 10)) (pinnedDb none) ∧
      ¬ SameMembers alice pinningTarget (pinnedDb (some 10)) (pinnedDb none) := by
  refine ⟨by decide, agreeOutside_pinnedDb _, fun h ↦ ?_⟩
  have hids := (h.resolve 0 10).mp (List.mem_singleton.mpr rfl)
  exact absurd hids List.not_mem_nil

/-! ### What a policy reads -/

section Policy

variable {db : Db} {u : User} {target : FleetTarget}

def PinsRedundant (db : Db) (u : User) (target : FleetTarget) : Prop :=
  if target.selector.labelFilters = [] then
    ∀ m ∈ db.members, m ∈ scopedMembers db u ↔ m.id ∈ target.pinnedMemberIds
  else
    ∀ m ∈ db.members, m.id ∈ target.pinnedMemberIds →
      m ∈ scopedMembers db u ∧ matchesSelector m target.selector.labelFilters = true

theorem resolveMemberIdsReadonly_eq :
    resolveMemberIdsReadonly db u target =
      (validateSelector target.selector).map fun _ ↦ (scopedMembers db u).filter fun m ↦
        matchesSelector m target.selector.labelFilters := by
  unfold resolveMemberIdsReadonly
  cases validateSelector target.selector <;> rfl

private theorem matchesSelector_nil (m : FleetMember) : matchesSelector m [] = true := rfl

private theorem denotes_iff_pinsRedundant :
    (∀ m ∈ db.members,
      m ∈ scopedMembers db u ∧ matchesSelector m target.selector.labelFilters = true ↔
        Denotes db u target.selector.labelFilters target.pinnedMemberIds m) ↔
    PinsRedundant db u target := by
  unfold PinsRedundant Denotes
  by_cases hnil : target.selector.labelFilters = []
  · rw [if_pos hnil, hnil]
    simp only [matchesSelector_nil, and_true, ne_eq, not_true_eq_false, false_and, or_false]
    constructor
    · intro h m hm
      rw [h m hm, and_iff_right hm]
    · intro h m hm
      rw [h m hm, and_iff_right hm]
  · rw [if_neg hnil]
    constructor
    · intro h m hm hp
      exact (h m hm).mpr ⟨hm, Or.inl hp⟩
    · intro h m hm
      constructor
      · intro hread
        exact ⟨hm, Or.inr ⟨hnil, hread⟩⟩
      · rintro ⟨-, hp | hread⟩
        · exact h m hm hp
        · exact hread.2

/-- A policy reads the members that `resolve_target` would take exactly where the pins are
redundant. -/
theorem resolveMemberIdsReadonly_iff (hv : validateSelector target.selector = .ok ()) (now : Int) :
    SameSet ((resolveMemberIdsReadonly db u target).map (List.map FleetMember.id))
        (resolvedIds db target u now) ↔
      PinsRedundant db u target := by
  rw [resolveMemberIdsReadonly_eq, resolvedIds_eq, hv, ← denotes_iff_pinsRedundant]
  simp only [Except.map, SameSet, List.mem_map, List.mem_filter, mem_resolveMembers]
  constructor
  · intro h m hm
    -- ids name rows, so equal ids are equal rows
    constructor
    · intro hread
      obtain ⟨m', hd, hid⟩ := (h m.id).mp ⟨m, hread, rfl⟩
      exact db.eq_of_id hd.1 hm hid ▸ hd
    · intro hd
      obtain ⟨m', hread, hid⟩ := (h m.id).mpr ⟨m, hd, rfl⟩
      exact db.eq_of_id (mem_of_mem_scopedMembers hread.1) hm hid ▸ hread
  · intro h id
    constructor
    · rintro ⟨m, hread, rfl⟩
      exact ⟨m, (h m (mem_of_mem_scopedMembers hread.1)).mp hread, rfl⟩
    · rintro ⟨m, hd, rfl⟩
      exact ⟨m, (h m hd.1).mpr hd, rfl⟩

end Policy

/-- Cluster 12, of project 4, which alice owns. -/
def aliceCluster : FleetMember :=
  ⟨12, some 4, "cluster", "edge-2", [("site", "muc")], [("site", "ber")], none, some "healthy",
    true⟩

/-- Cluster 12 alone, with the target. -/
def aliceDb (target : FleetTarget) : Db where
  projects := [⟨4, some 1, none, none⟩]
  members := [aliceCluster]
  targets := [target]
  decisions := []
  strategies := []
  policies := []
  nextMemberId := 13
  members_nodup := by decide
  members_lt := by decide
  members_project := by decide

/-- A fleet with a selector that pins a member the selector finds too. -/
def siteTarget : FleetTarget := ⟨2, none, .object (some (.list ["site=ber"])), [12], false⟩

/-- A fleet with neither a selector nor a pin. -/
def emptyTarget : FleetTarget := ⟨3, none, .object none, [], false⟩

theorem resolveMemberIdsReadonly_iff_site :
    SameSet ((resolveMemberIdsReadonly (aliceDb siteTarget) alice siteTarget).map
      (List.map FleetMember.id)) (resolvedIds (aliceDb siteTarget) siteTarget alice 0) := by
  refine (resolveMemberIdsReadonly_iff (by decide) 0).mpr ?_
  unfold PinsRedundant
  decide

/-- A policy on an empty fleet reads every member that the user may see. -/
theorem resolveMemberIdsReadonly_empty_reads_all :
    validateSelector emptyTarget.selector = .ok () ∧
      ¬ SameSet ((resolveMemberIdsReadonly (aliceDb emptyTarget) alice emptyTarget).map
        (List.map FleetMember.id)) (resolvedIds (aliceDb emptyTarget) emptyTarget alice 0) := by
  refine ⟨rfl, fun h ↦ ?_⟩
  have hid := (h 12).mp (List.mem_singleton.mpr rfl)
  exact absurd hid List.not_mem_nil

end BnkForge.Fleet
