import BnkForge.Fleet.History

/-!
# Whose members a run acts on

Every route that creates a bulk run checks the projects of some members against the caller with
`require_fleet_mutation` (`backend/services/fleet_rbac.py:28–62`), which lets projects without an
owner pass (`backend/routes/auth.py:158–163`). The executor acts on members of the decision of the
run and checks nothing more.
-/

namespace BnkForge.Fleet

open Transition ExceptResult List

def Authorized (projects : List Project) (u : User) (m : FleetMember) : Prop :=
  ∀ projectId, m.projectId = some projectId →
    ∃ p ∈ projects, p.id = projectId ∧ (p.userId = some u.id ∨ p.userId = none)

def Event.creator : Event → Option User
  | .start u _ _ | .selection u _ _ _ | .rerun u _ | .enforce u _ => some u
  | _ => none

def rerunPins (w : World) (runId : Nat) : List Nat :=
  match w.jobs[runId]?.bind fun j ↦ j.decision w.db with
  | none => []
  | some decision =>
    ((findTarget w.db decision.targetId).toOption.elim [] FleetTarget.pinnedMemberIds).filter
      fun id ↦ !decision.resolvedMemberIds.contains id

/-- The members that a new run takes from the pins of its target unchecked. -/
def Event.pins (w : World) : Event → List Nat
  | .rerun _ runId => rerunPins w runId
  | _ => []

/-! ### The check -/

section Check

variable {db : Db} {u : User} {projectIds : List (Option Nat)} {memberIds : List Nat}

private theorem checkOwnership_eq_ok (hu : effectiveRole u ≠ .admin) {p : Project}
    (h : checkOwnership u p = .ok ()) : p.userId = some u.id ∨ p.userId = none := by
  unfold checkOwnership at h
  rw [if_neg hu] at h
  split at h
  · next hnone => exact Or.inr hnone
  · next owner hsome =>
    split at h
    · next howner => exact Or.inl (howner ▸ hsome)
    · cases h

theorem requireFleetMutation_eq_ok (hu : effectiveRole u ≠ .admin)
    (h : requireFleetMutation db u projectIds = .ok ()) :
    ∀ pid, some pid ∈ projectIds → ∀ p, db.projects.find? (·.id == pid) = some p →
      p.userId = some u.id ∨ p.userId = none := by
  induction projectIds with
  | nil => exact nofun
  | cons projectId projectIds ih =>
    intro pid hpid p hp
    cases projectId with
    | none =>
      rcases mem_cons.mp hpid with hpid | hpid
      · cases hpid
      · exact ih h pid hpid p hp
    | some pid₀ =>
      unfold requireFleetMutation at h
      split at h
      · next hnone =>
        rcases mem_cons.mp hpid with hpid | hpid
        · cases hpid
          exact absurd (hnone.symm.trans hp) nofun
        · exact ih h pid hpid p hp
      · next p₀ hsome =>
        obtain ⟨⟨⟩, hown, h⟩ := bind_eq_ok.mp h
        rcases mem_cons.mp hpid with hpid | hpid
        · cases hpid
          cases hsome.symm.trans hp
          exact checkOwnership_eq_ok hu hown
        · exact ih h pid hpid p hp

theorem authorized_of_requireFleetMutation (hu : effectiveRole u ≠ .admin) {projectId : Option Nat}
    (h : requireFleetMutation db u (projectId :: memberProjectIds db memberIds) = .ok ())
    {m : FleetMember} (hm : m ∈ db.members) (hid : m.id ∈ memberIds) :
    Authorized db.projects u m := by
  intro pid hpid
  have hknown := db.members_project m hm
  rw [hpid, Option.all_some, contains_iff_mem, mem_map] at hknown
  obtain ⟨q, hq, hqid⟩ := hknown
  cases hfind : db.projects.find? (·.id == pid) with
  | none => exact absurd (beq_iff_eq.mpr hqid) (find?_eq_none.mp hfind q hq)
  | some p =>
    have hpin : some pid ∈ projectId :: memberProjectIds db memberIds := by
      refine mem_cons_of_mem _ (mem_map.mpr ⟨m, mem_filter.mpr ⟨hm, ?_⟩, hpid⟩)
      exact contains_iff_mem.mpr hid
    exact ⟨p, mem_of_find?_eq_some hfind, by simpa using find?_some hfind,
      requireFleetMutation_eq_ok hu h pid hpin p hfind⟩

theorem authorized_of_mem_scopedMembers (hu : effectiveRole u ≠ .admin) {m : FleetMember}
    (hm : m ∈ scopedMembers db u) : Authorized db.projects u m := by
  obtain ⟨-, pid, hpid, p, hp, hid, hown⟩ := (mem_scopedMembers hu m).mp hm
  intro pid' hpid'
  cases hpid.symm.trans hpid'
  exact ⟨p, hp, hid, Or.inl hown⟩

end Check

/-! ### What a new run may act on -/

section Create

variable {w w' : World} {e : Event} {u : User}

/-- The run just created is on a decision over members that exist, authorized where the target does
not pin them. -/
structure CreatesWithin (w w' : World) (e : Event) (u : User) (d : FleetDecision) : Prop where
  members : w'.db.members = w.db.members
  alive : ∀ id ∈ d.resolvedMemberIds, id < w'.db.nextMemberId
  job : ∃ j, w'.jobs[w.jobs.length]? = some j ∧ j.decision w'.db = some d ∧ j.phase = .idle ∧
    j.log = []
  authorized : ∀ m ∈ w.db.members, m.id ∈ d.resolvedMemberIds →
    Authorized w.db.projects u m ∨ m.id ∈ e.pins w

private theorem mem_rerunPins {runId id : Nat} {original : Job} {decision : FleetDecision}
    {target : FleetTarget} (hj : w.jobs[runId]? = some original)
    (hdec : w.db.decisions[original.run.decisionId]? = some decision)
    (htarget : findTarget w.db decision.targetId = .ok target)
    (hpin : id ∈ target.pinnedMemberIds) (hold : id ∉ decision.resolvedMemberIds) :
    id ∈ rerunPins w runId := by
  unfold rerunPins
  rw [hj, Option.bind_some, Job.decision, hdec]
  dsimp only
  rw [htarget]
  refine mem_filter.mpr ⟨hpin, ?_⟩
  rw [Bool.not_eq_true', ← Bool.not_eq_true, contains_iff_mem]
  exact hold

private theorem getElem?_decisionFromMemberIds (db : Db) (target : FleetTarget) (ids : List Nat)
    (resolvedBy : String) (now : Int) :
    (decisionFromMemberIds db target ids resolvedBy now).1.decisions[db.decisions.length]? =
      some (newDecision target ids resolvedBy now) := by
  simp [decisionFromMemberIds, recordDecision]

private theorem createsWithin_decision {target : FleetTarget} {ids : List Nat} {run : FleetBulkRun}
    (hids : ∀ id ∈ ids, Alive w.db id) (hfresh : FreshRun run w.db.decisions.length)
    (hauth : ∀ m ∈ w.db.members, m.id ∈ ids → Authorized w.db.projects u m ∨ m.id ∈ e.pins w) :
    CreatesWithin w
      (World.dispatchRun { w with db := (decisionFromMemberIds w.db target ids u.username w.now).1 }
        run) e u (newDecision target ids u.username w.now) where
  members := rfl
  alive := fun id hid ↦ (hids id hid).lt
  job := by
    refine ⟨⟨run, [], true, 0, .idle, 0, 0, []⟩, getElem?_concat_length, ?_, rfl, rfl⟩
    rw [Job.decision, hfresh.decisionId]
    exact getElem?_decisionFromMemberIds _ _ _ _ _
  authorized := hauth

theorem createsWithin_of_step (hs : Sound w) (hst : step w e = some w') (hu : e.creator = some u)
    (hadmin : effectiveRole u ≠ .admin) (hcreated : w.jobs.length < w'.jobs.length) :
    ∃ d, CreatesWithin w w' e u d := by
  unfold step at hst
  cases e with
  | start v decisionId body =>
    cases hu
    obtain ⟨d, run, hd, -, hrbac, hfresh, rfl⟩ :=
      startFleetBulkOp_eq_ok (ExceptResult.eq_ok_of_toOption hst)
    refine ⟨d, rfl, hs.decisions d (mem_of_getElem? hd),
      ⟨⟨run, [], true, 0, .idle, 0, 0, []⟩, getElem?_concat_length, ?_, rfl, rfl⟩,
      fun m hm hid ↦ Or.inl (authorized_of_requireFleetMutation hadmin hrbac hm hid)⟩
    rw [Job.decision, hfresh.decisionId]
    exact hd
  | selection v targetId memberIds body =>
    cases hu
    obtain ⟨⟨w', error⟩, hok, rfl⟩ := Option.map_eq_some_iff.mp hst
    obtain ⟨target, ids, db, -, hids, hrbac, rfl, rfl | ⟨run, hfresh, rfl⟩⟩ :=
      runFleetSelection_eq_ok (ExceptResult.eq_ok_of_toOption hok)
    · exact absurd hcreated (lt_irrefl _)
    · exact ⟨_, createsWithin_decision (fun id hid ↦ alive_of_mem_fleetMemberIds id (hids id hid))
        hfresh fun m hm hid ↦ Or.inl (authorized_of_requireFleetMutation hadmin hrbac hm hid)⟩
  | rerun v runId =>
    cases hu
    obtain ⟨original, decision, target, db, d, run, hj, hdec, htarget, hrbac, hresolve, hfresh,
      rfl⟩ := rerunFleetBulkOp_eq_ok (ExceptResult.eq_ok_of_toOption hst)
    cases resolveTarget_eq_ok hresolve
    refine ⟨_, createsWithin_decision alive_of_mem_resolveMembers hfresh fun m hm hid ↦ ?_⟩
    obtain ⟨x, hx, hxm⟩ := mem_map.mp hid
    obtain ⟨hmem, hsel⟩ := (mem_resolveMembers x).mp hx
    cases w.db.eq_of_id hmem hm hxm
    -- the selector finds members in scope only; pins are checked where the old decision has them
    rcases hsel with hpin | ⟨-, hscoped, -⟩
    · by_cases hold : m.id ∈ decision.resolvedMemberIds
      · exact Or.inl (authorized_of_requireFleetMutation hadmin hrbac hm hold)
      · exact Or.inr (mem_rerunPins hj hdec htarget hpin hold)
    · exact Or.inl (authorized_of_mem_scopedMembers hadmin hscoped)
  | enforce v policyId =>
    cases hu
    obtain rfl | ⟨target, ids, run, hids, hfresh, rfl⟩ :=
      enforceFleetPolicy_eq_ok (ExceptResult.eq_ok_of_toOption hst)
    · exact absurd hcreated (lt_irrefl _)
    · refine ⟨_, createsWithin_decision (fun id hid ↦ ?_) hfresh fun m hm hid ↦ ?_⟩
      · obtain ⟨x, hx, rfl⟩ := hids id hid
        exact ⟨x, mem_of_mem_scopedMembers hx, rfl⟩
      · obtain ⟨x, hx, hxm⟩ := hids _ hid
        cases w.db.eq_of_id (mem_of_mem_scopedMembers hx) hm hxm
        exact Or.inl (authorized_of_mem_scopedMembers hadmin hx)
  | _ => cases hu

end Create

/-! ### What the executor acts on -/

/-- What the executor has at hand in the given phase, for a decision over `ids`. -/
def ConfinedIn (ids : List Nat) (S : Nat → Prop) : Phase → Prop
  | .loaded _ decision => decision.resolvedMemberIds = ids
  | .planned _ plan | .boundary plan _ | .opening plan _ => ∀ id ∈ plan.waves.flatten, S id
  | .dispatching plan _ pending => (∀ id ∈ plan.waves.flatten, S id) ∧ ∀ id ∈ pending, S id
  | _ => True

/-- The run has dispatched members in `S` only, and is going to. -/
structure Confined (ids : List Nat) (S : Nat → Prop) (j : Job) : Prop where
  phase : ConfinedIn ids S j.phase
  log : ∀ id ∈ j.log, S id

section Confined

variable {db db' : Db} {now : Int} {j j' : Job} {e : RunEvent} {ids : List Nat} {S : Nat → Prop}

private theorem confinedIn_from {plan : Plan} (h : ∀ id ∈ plan.waves.flatten, S id) (i : Nat) :
    ConfinedIn ids S (plan.from i) := by
  unfold Plan.from
  split
  · exact h
  · exact trivial

theorem Confined.step (h : Confined ids S j)
    (hdecision : ∀ d, j.decision db = some d → d.resolvedMemberIds = ids)
    (hplan : ∀ waveBy, ∀ id ∈ (planWaves db waveBy ids).waves.flatten, S id)
    (hstep : JobStep db now j e db' j') : Confined ids S j' := by
  have hp := h.phase
  cases hstep with
  | readDecision resuming decision hphase hd => exact ⟨hdecision decision hd, h.log⟩
  | checkMembers resuming decision hphase _ =>
    rw [hphase] at hp
    refine ⟨?_, h.log⟩
    rw [show decision.resolvedMemberIds = ids from hp]
    exact hplan _
  | commitStart resuming plan hphase =>
    rw [hphase] at hp
    exact ⟨confinedIn_from hp _, h.log⟩
  | refresh plan i hphase _ =>
    rw [hphase] at hp
    exact ⟨hp, h.log⟩
  | openWave plan i hphase _ =>
    rw [hphase] at hp
    exact ⟨⟨hp, fun id hid ↦ hp id (plan.wave_subset i id hid)⟩, h.log⟩
  | dispatch memberId facts plan i pending hphase hmem =>
    rw [hphase] at hp
    refine ⟨⟨hp.1, fun id hid ↦ hp.2 id (mem_of_mem_erase hid)⟩, fun id hid ↦ ?_⟩
    rcases mem_append.mp hid with hid | hid
    · exact h.log id hid
    · exact mem_singleton.mp hid ▸ hp.2 memberId hmem
  | nextWave plan i hphase _ =>
    rw [hphase] at hp
    exact ⟨hp.1, h.log⟩
  | dropResume _ _ | cancelRead _ _ | cancelCommit | resumeRead _ _ | resumeCommit _ =>
    exact ⟨hp, h.log⟩
  | _ => exact ⟨trivial, h.log⟩

end Confined

section Authority

variable {w w' w₁ : World} {e : Event} {u : User} {d : FleetDecision}

theorem CreatesWithin.confined {es : List Event} (h : CreatesWithin w w₁ e u d)
    (hrun : Run step Free w₁ es w') {j : Job} (hj : w'.jobs[w.jobs.length]? = some j) :
    ∀ id ∈ j.log, id ∈ d.resolvedMemberIds ∧ Alive w₁.db id := by
  let S (id : Nat) : Prop := id ∈ d.resolvedMemberIds ∧ Alive w₁.db id
  let Inv (x : World) : Prop := Evolves w₁.db x.db ∧ ∃ j k, x.jobs[w.jobs.length]? = some j ∧
    j.run.decisionId = k ∧ w₁.db.decisions[k]? = some d ∧ Confined d.resolvedMemberIds S j
  have hstart : Inv w₁ := by
    obtain ⟨j, hj, hd, hidle, hlog⟩ := h.job
    refine ⟨Evolves.refl _, j, _, hj, rfl, hd, ?_, ?_⟩
    · rw [hidle]
      exact trivial
    · rw [hlog]
      exact nofun
  have hkeep : ∀ a e b, Inv a → Free a e → step a e = some b → Inv b := by
    rintro a e b ⟨hev, j, k, hj, rfl, hk, hconf⟩ - hst
    refine ⟨hev.trans (evolves_step hst), ?_⟩
    obtain ⟨j', hj', rfl | ⟨re, rfl, hjob⟩⟩ := (jobsStep_of_step hst).forward hj
    · exact ⟨_, _, hj', rfl, hk, hconf⟩
    · refine ⟨j', _, hj', hjob.decisionId, hk, hconf.step ?_ ?_ hjob⟩
      · intro d' hd'
        obtain ⟨d₁, hd₁, hage⟩ := hev.decisions _ d hk
        cases hd'.symm.trans hd₁
        exact hage.members
      · intro waveBy id hid
        obtain ⟨hmem, halive⟩ := mem_planWaves.mp hid
        exact ⟨hmem, hev.alive id (h.alive id hmem) halive⟩
  obtain ⟨-, j', k, hj', -, -, hconf⟩ := hrun.invariant hstart hkeep
  cases hj.symm.trans hj'
  exact hconf.log

/-- Every member that a run acts on was, when the run was created, in no project, in one of the
user's or in one without an owner, unless a rerun took it from the pins of its target. -/
theorem dispatched_within_authority {db : Db} {now : Int} {es es' : List Event} {j : Job} {id : Nat}
    (hrun : Run step Free (.initial db now) es w) (hst : step w e = some w₁)
    (hu : e.creator = some u) (hadmin : effectiveRole u ≠ .admin)
    (hcreated : w.jobs.length < w₁.jobs.length) (hrun' : Run step Free w₁ es' w')
    (hj : w'.jobs[w.jobs.length]? = some j) (hid : id ∈ j.log) :
    ∃ m ∈ w.db.members, m.id = id ∧ (Authorized w.db.projects u m ∨ id ∈ e.pins w) := by
  have hsound : Sound w :=
    hrun.invariant (sound_initial db now) fun _ _ _ hs _ hst ↦ sound_step hs hst
  obtain ⟨d, hcreates⟩ := createsWithin_of_step hsound hst hu hadmin hcreated
  obtain ⟨hmem, m, hm, rfl⟩ := hcreates.confined hrun' hj id hid
  rw [hcreates.members] at hm
  exact ⟨m, hm, rfl, hcreates.authorized m hm hmem⟩

end Authority

/-! ### Alice's runs -/

/-- The executor of a run dispatches member 1. -/
def dispatchesFirst : List Event :=
  (executorStarts ++ [RunEvent.refresh, .openWave, .dispatch 1 none]).map (Event.run 0)

/-- Alice has resolved fleet 1. -/
def resolvedWorld (db : Db) : World :=
  (exec step (.initial db 0) [.resolveRead alice 1, .resolveCommit 0]).getD (.initial db 0)

def createdWorld (db : Db) : World :=
  (step (resolvedWorld db) (.start alice 0 (setEnv none))).getD (resolvedWorld db)

/-- The run has dispatched member 1. -/
def dispatchedWorld (db : Db) : World :=
  (exec step (createdWorld db) dispatchesFirst).getD (createdWorld db)

theorem dispatched_within_authority_twoSites :
    ∃ m ∈ (resolvedWorld twoSites).db.members, m.id = 1 ∧
      Authorized (resolvedWorld twoSites).db.projects alice m := by
  have hresolve : Run step Free (.initial twoSites 0) [.resolveRead alice 1, .resolveCommit 0]
      (resolvedWorld twoSites) := Run.free_iff_exec.mpr rfl
  have hdispatch :
      Run step Free (createdWorld twoSites) dispatchesFirst (dispatchedWorld twoSites) :=
    Run.free_iff_exec.mpr rfl
  obtain ⟨m, hm, hid, hauth⟩ :=
    dispatched_within_authority (e := .start alice 0 (setEnv none)) hresolve rfl rfl (by decide)
      (by decide) hdispatch rfl (List.mem_singleton_self 1)
  exact ⟨m, hm, hid, hauth.resolve_right List.not_mem_nil⟩

def legacySite : Db where
  projects := [⟨7, none, none, none⟩]
  members := [{ siteCluster 1 "a" with projectId := some 7 }]
  targets := [⟨1, none, .object none, [1], false⟩]
  decisions := []
  strategies := []
  policies := []
  nextMemberId := 2
  members_nodup := by decide
  members_lt := by decide
  members_project := by decide

/-- Alice starts a run that acts on a cluster in a project that is not hers. -/
theorem legacyMember_dispatched :
    Run step Free (.initial legacySite 0) [.resolveRead alice 1, .resolveCommit 0]
        (resolvedWorld legacySite) ∧
      step (resolvedWorld legacySite) (.start alice 0 (setEnv none)) =
        some (createdWorld legacySite) ∧
      effectiveRole alice ≠ .admin ∧
      Run step Free (createdWorld legacySite) dispatchesFirst (dispatchedWorld legacySite) ∧
      ∃ j, (dispatchedWorld legacySite).jobs[0]? = some j ∧ 1 ∈ j.log ∧
        ∃ m ∈ (resolvedWorld legacySite).db.members, m.id = 1 ∧ m.projectId = some 7 ∧
          ∀ p ∈ (resolvedWorld legacySite).db.projects, p.id = 7 → p.userId ≠ some alice.id := by
  refine ⟨Run.free_iff_exec.mpr rfl, rfl, by decide, Run.free_iff_exec.mpr rfl, _, rfl, by decide,
    { siteCluster 1 "a" with projectId := some 7 }, by decide, rfl, rfl, by decide⟩

end BnkForge.Fleet
