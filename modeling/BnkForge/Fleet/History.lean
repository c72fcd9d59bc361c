import BnkForge.Fleet.System
import BnkForge.Lib.ExceptResult

/-!
# What every history of the fleet keeps

A decision keeps its members and never becomes resolved again, and a member id that has been given
out is not given to another member. Every step of the system either is a step of one run, or adds a
run, or leaves the runs as they are.
-/

namespace BnkForge.Fleet

open Transition ExceptResult List

def Alive (db : Db) (id : Nat) : Prop := ∃ m ∈ db.members, m.id = id

/-- The decision `d'` is `d` after some time. -/
structure Ages (d d' : FleetDecision) : Prop where
  members : d'.resolvedMemberIds = d.resolvedMemberIds
  status : d'.status = .resolved → d.status = .resolved

/-- The tables `db'` are `db` after some time. -/
structure Evolves (db db' : Db) : Prop where
  decisions : ∀ (k : Nat) d, db.decisions[k]? = some d →
    ∃ d', db'.decisions[k]? = some d' ∧ Ages d d'
  next_le : db.nextMemberId ≤ db'.nextMemberId
  alive : ∀ id < db.nextMemberId, Alive db' id → Alive db id

section Evolves

variable {db db' db'' : Db}

theorem Alive.lt {id : Nat} (h : Alive db id) : id < db.nextMemberId := by
  obtain ⟨m, hm, rfl⟩ := h
  exact db.members_lt m hm

theorem Ages.refl (d : FleetDecision) : Ages d d := ⟨rfl, id⟩

theorem Evolves.trans (h : Evolves db db') (h' : Evolves db' db'') : Evolves db db'' where
  decisions := by
    intro k d hd
    obtain ⟨d', hd', hage⟩ := h.decisions k d hd
    obtain ⟨d'', hd'', hage'⟩ := h'.decisions k d' hd'
    exact ⟨d'', hd'', hage'.members.trans hage.members, fun hs ↦ hage.status (hage'.status hs)⟩
  next_le := h.next_le.trans h'.next_le
  alive := by
    intro id hid halive
    exact h.alive id hid (h'.alive id (hid.trans_le h.next_le) halive)

private theorem evolves_of_members (hd : db'.decisions = db.decisions)
    (hn : db.nextMemberId ≤ db'.nextMemberId)
    (ha : ∀ id < db.nextMemberId, Alive db' id → Alive db id) : Evolves db db' := by
  refine ⟨fun k d h ↦ ⟨d, ?_, Ages.refl d⟩, hn, ha⟩
  rwa [hd]

theorem evolves_of_eq (hm : db'.members = db.members) (hd : db'.decisions = db.decisions)
    (hn : db'.nextMemberId = db.nextMemberId) : Evolves db db' := by
  refine evolves_of_members hd hn.ge fun id _ h ↦ ?_
  unfold Alive at h ⊢
  rwa [hm] at h

theorem Evolves.refl (db : Db) : Evolves db db := evolves_of_eq rfl rfl rfl

theorem alive_setMember {m : FleetMember} {h : db.KnowsProject m} {id : Nat} :
    Alive (db.setMember m h) id ↔ Alive db id := by
  unfold Alive Db.setMember
  constructor
  · rintro ⟨y, hy, rfl⟩
    obtain ⟨x, hx, rfl⟩ := mem_map.mp hy
    refine ⟨x, hx, ?_⟩
    split
    · assumption
    · rfl
  · rintro ⟨x, hx, rfl⟩
    refine ⟨_, mem_map_of_mem hx, ?_⟩
    split
    · exact Eq.symm ‹_›
    · rfl

theorem evolves_setMember (m : FleetMember) (h : db.KnowsProject m) :
    Evolves db (db.setMember m h) :=
  evolves_of_members rfl le_rfl fun _ _ ↦ alive_setMember.mp

theorem evolves_addMember (m : FleetMember) (h : db.KnowsProject m) :
    Evolves db (db.addMember m h) := by
  refine evolves_of_members rfl (Nat.le_succ _) ?_
  rintro _ hlt ⟨x, hx, rfl⟩
  rcases mem_append.mp hx with hx | hx
  · exact ⟨x, hx, rfl⟩
  · rw [mem_singleton.mp hx] at hlt
    exact absurd hlt (lt_irrefl _)

theorem evolves_removeMember (id : Nat) : Evolves db (db.removeMember id) := by
  refine evolves_of_members rfl le_rfl ?_
  rintro _ _ ⟨x, hx, rfl⟩
  exact ⟨x, (mem_filter.mp hx).1, rfl⟩

theorem evolves_removeProject (projectId : Nat) : Evolves db (db.removeProject projectId) := by
  refine evolves_of_members rfl le_rfl ?_
  rintro _ _ ⟨x, hx, rfl⟩
  exact ⟨x, (mem_filter.mp hx).1, rfl⟩

theorem evolves_setDecisionStatus (k : Nat) {status : DecisionStatus} (h : status ≠ .resolved) :
    Evolves db (db.setDecisionStatus k status) := by
  refine ⟨fun i d hd ↦ ?_, le_rfl, fun _ _ ↦ id⟩
  unfold Db.setDecisionStatus
  rw [getElem?_modify, hd]
  by_cases hik : k = i
  · exact ⟨{ d with status }, by simp [hik], rfl, fun hs ↦ absurd hs h⟩
  · exact ⟨d, by simp [hik], Ages.refl d⟩

theorem evolves_recordDecision (prior : List Nat) (decision : FleetDecision) :
    Evolves db (recordDecision db prior decision) := by
  refine ⟨fun i d hd ↦ ?_, le_rfl, fun _ _ ↦ id⟩
  have hlt : i < db.decisions.length := (List.getElem?_eq_some_iff.mp hd).1
  unfold recordDecision
  rw [getElem?_append_left (by rwa [length_mapIdx]), getElem?_mapIdx, hd]
  by_cases hprior : prior.contains i = true
  · exact ⟨{ d with status := .superseded }, by rw [Option.map_some, if_pos hprior], rfl, nofun⟩
  · exact ⟨d, by rw [Option.map_some, if_neg hprior], Ages.refl d⟩

theorem evolves_decisionFromMemberIds (target : FleetTarget) (memberIds : List Nat)
    (resolvedBy : String) (now : Int) :
    Evolves db (decisionFromMemberIds db target memberIds resolvedBy now).1 :=
  evolves_recordDecision _ _

theorem evolves_writeMember (m : FleetMember) : Evolves db (db.writeMember m) := by
  unfold Db.writeMember
  split
  · exact evolves_setMember m _
  · exact Evolves.refl db

theorem evolves_dispatchActionForMember (memberId : Nat) (action : Action) (labels : Labels)
    (facts : Option TargetFacts) :
    Evolves db (dispatchActionForMember db memberId action labels facts) := by
  unfold dispatchActionForMember
  split
  · exact Evolves.refl db
  · split
    · exact evolves_writeMember _
    · split
      · exact evolves_writeMember _
      · exact Evolves.refl db
    · exact Evolves.refl db

theorem JobStep.evolves {now : Int} {j j' : Job} {e : RunEvent} (h : JobStep db now j e db' j') :
    Evolves db db' := by
  cases h with
  | commitStart resuming plan hphase =>
    split
    · exact Evolves.refl db
    · exact evolves_setDecisionStatus _ (by decide)
  | dispatch memberId facts plan i pending hphase hmem =>
    exact evolves_dispatchActionForMember _ _ _ _
  | _ => exact Evolves.refl db

end Evolves

/-! ### Members of decisions -/

def MembersKnown (db : Db) (d : FleetDecision) : Prop :=
  ∀ id ∈ d.resolvedMemberIds, id < db.nextMemberId

/-- The members of all decisions, also of those not committed, have been given out. -/
structure Sound (w : World) : Prop where
  decisions : ∀ d ∈ w.db.decisions, MembersKnown w.db d
  resolutions : ∀ r ∈ w.resolutions, MembersKnown w.db r.decision

section Sound

variable {w : World} {db : Db}

theorem sound_initial (db : Db) (now : Int) : Sound (.initial db now) := ⟨nofun, nofun⟩

theorem Sound.of_decisions (h : Sound w) (hnext : w.db.nextMemberId ≤ db.nextMemberId)
    (hd : ∀ d ∈ db.decisions, ∃ d' ∈ w.db.decisions, d'.resolvedMemberIds = d.resolvedMemberIds)
    (now : Int) (jobs : List Job) : Sound ⟨db, now, w.resolutions, jobs⟩ where
  decisions := by
    intro d hmem id hid
    obtain ⟨d', hd', hids⟩ := hd d hmem
    exact (h.decisions d' hd' id (hids ▸ hid)).trans_le hnext
  resolutions := by
    intro r hr id hid
    exact (h.resolutions r hr id hid).trans_le hnext

theorem Sound.of_eq (h : Sound w) (db : Db) (hnext : w.db.nextMemberId ≤ db.nextMemberId)
    (hd : db.decisions = w.db.decisions) (now : Int) (jobs : List Job) :
    Sound ⟨db, now, w.resolutions, jobs⟩ :=
  h.of_decisions hnext (fun d hmem ↦ ⟨d, hd ▸ hmem, rfl⟩) now jobs

theorem Sound.recordDecision (h : Sound w) {decision : FleetDecision}
    (hknown : MembersKnown w.db decision) (prior : List Nat) :
    ∀ d ∈ (recordDecision w.db prior decision).decisions,
      MembersKnown (Fleet.recordDecision w.db prior decision) d := by
  intro d hd
  rcases mem_append.mp hd with hd | hd
  · obtain ⟨i, hi, rfl⟩ := mem_mapIdx.mp hd
    have hmem := h.decisions _ (getElem_mem hi)
    split
    · exact hmem
    · exact hmem
  · rw [mem_singleton.mp hd]
    exact hknown

theorem Sound.decisionFromMemberIds (h : Sound w) {ids : List Nat}
    (hids : ∀ id ∈ ids, Alive w.db id) (target : FleetTarget) (resolvedBy : String) (now : Int)
    (jobs : List Job) :
    Sound ⟨(decisionFromMemberIds w.db target ids resolvedBy now).1, w.now, w.resolutions,
      jobs⟩ where
  decisions := h.recordDecision (fun id hid ↦ (hids id hid).lt) _
  resolutions := h.resolutions

theorem alive_of_mem_resolveMembers {u : User} {labelFilters : List String} {pinned : List Nat} :
    ∀ id ∈ (resolveMembers db u labelFilters pinned).map FleetMember.id, Alive db id := by
  intro id hid
  obtain ⟨m, hm, rfl⟩ := mem_map.mp hid
  exact ⟨m, ((mem_resolveMembers m).mp hm).1, rfl⟩

theorem alive_of_mem_fleetMemberIds {target : FleetTarget} :
    ∀ id ∈ fleetMemberIds db target, Alive db id := by
  intro id hid
  unfold fleetMemberIds at hid
  dsimp only at hid
  split at hid
  · exact absurd hid not_mem_nil
  · obtain ⟨m, hm, rfl⟩ := mem_map.mp hid
    refine ⟨m, ?_, rfl⟩
    rcases mem_append.mp hm with hm | hm
    · split at hm
      · exact absurd hm not_mem_nil
      · exact (mem_filter.mp hm).1
    · exact (mem_filter.mp hm).1

theorem membersKnown_resolveFleetTarget {u : User} {targetId : Nat} {r : Resolution}
    (h : resolveFleetTarget w u targetId = .ok r) : MembersKnown w.db r.decision := by
  unfold resolveFleetTarget at h
  obtain ⟨-, -, h⟩ := bind_eq_ok.mp h
  obtain ⟨target, -, h⟩ := bind_eq_ok.mp h
  obtain ⟨-, -, h⟩ := bind_eq_ok.mp h
  cases h
  intro id hid
  exact (alive_of_mem_resolveMembers id hid).lt

theorem JobStep.sound {db' : Db} {now : Int} {j j' : Job} {e : RunEvent} (h : Sound w)
    (hstep : JobStep w.db now j e db' j') (jobs : List Job) :
    Sound ⟨db', w.now, w.resolutions, jobs⟩ := by
  cases hstep with
  | commitStart resuming plan hphase =>
    refine h.of_decisions ?_ ?_ _ _
    · split <;> exact le_rfl
    · intro d hd
      split at hd
      · exact ⟨d, hd, rfl⟩
      · unfold Db.setDecisionStatus at hd
        obtain ⟨i, hi, rfl⟩ := getElem_of_mem hd
        rw [length_modify] at hi
        refine ⟨_, getElem_mem hi, ?_⟩
        rw [getElem_modify]
        split <;> rfl
  | dispatch memberId facts plan i pending hphase hmem =>
    have hdec : (dispatchActionForMember w.db memberId j.run.action j.run.actionLabels
        facts).decisions = w.db.decisions := by
      unfold dispatchActionForMember Db.writeMember
      repeat' split
      all_goals rfl
    exact h.of_eq _ (evolves_dispatchActionForMember _ _ _ _).next_le hdec _ _
  | _ => exact h.of_eq w.db le_rfl rfl _ _

end Sound

/-! ### Steps of the system -/

/-- What a step of the system does to the runs. -/
inductive JobsStep (w : World) : Event → World → Prop
  | run (runId : Nat) (e : RunEvent) (j j' : Job) (db : Db) (hj : w.jobs[runId]? = some j)
      (hstep : JobStep w.db w.now j e db j') :
      JobsStep w (.run runId e) { w with db, jobs := w.jobs.set runId j' }
  | create (e : Event) (w' : World) (run : FleetBulkRun) (decisionId : Nat)
      (hnot : ∀ runId re, e ≠ .run runId re)
      (hfresh : FreshRun run decisionId) (hdecision : decisionId < w'.db.decisions.length)
      (hjobs : w'.jobs = w.jobs ++ [⟨run, [], true, 0, .idle, 0, 0, []⟩]) : JobsStep w e w'
  | other (e : Event) (w' : World) (hnot : ∀ runId re, e ≠ .run runId re)
      (hjobs : w'.jobs = w.jobs) : JobsStep w e w'

section Steps

variable {w w' : World} {e : Event}

private theorem lt_length_decisionFromMemberIds (db : Db) (target : FleetTarget) (ids : List Nat)
    (resolvedBy : String) (now : Int) :
    db.decisions.length <
      (decisionFromMemberIds db target ids resolvedBy now).1.decisions.length := by
  rw [decisionFromMemberIds, recordDecision, length_append, length_mapIdx,
    length_singleton]
  exact Nat.lt_succ_self _

/-- Every step does one of the three things to the runs, lets the tables evolve and keeps them
sound. -/
private theorem spec_of_step (h : step w e = some w') :
    JobsStep w e w' ∧ Evolves w.db w'.db ∧ (Sound w → Sound w') := by
  unfold step at h
  cases e with
  | run runId e =>
    dsimp only at h
    split at h
    · next j hj =>
      obtain ⟨⟨db, j'⟩, hstep, ⟨⟩⟩ := Option.map_eq_some_iff.mp h
      have hstep := jobStep_of_stepJob hstep
      exact ⟨.run runId e j j' db hj hstep, hstep.evolves, fun hs ↦ hstep.sound hs _⟩
    · cases h
  | start u decisionId body =>
    obtain ⟨decision, run, hd, -, -, hfresh, rfl⟩ :=
      startFleetBulkOp_eq_ok (ExceptResult.eq_ok_of_toOption h)
    have hlt := (List.getElem?_eq_some_iff.mp hd).1
    exact ⟨.create _ _ run decisionId nofun hfresh hlt rfl, Evolves.refl _,
      fun hs ↦ hs.of_eq w.db le_rfl rfl _ _⟩
  | selection u targetId memberIds body =>
    obtain ⟨⟨w', error⟩, hok, rfl⟩ := Option.map_eq_some_iff.mp h
    obtain ⟨target, ids, db, -, hids, -, rfl, hw⟩ :=
      runFleetSelection_eq_ok (ExceptResult.eq_ok_of_toOption hok)
    have halive : ∀ id ∈ ids, Alive w.db id :=
      fun id hid ↦ alive_of_mem_fleetMemberIds id (hids id hid)
    obtain rfl | ⟨run, hfresh, rfl⟩ := hw
    · exact ⟨.other _ _ nofun rfl, evolves_decisionFromMemberIds _ _ _ _,
        fun hs ↦ hs.decisionFromMemberIds halive _ _ _ _⟩
    · have hlt := lt_length_decisionFromMemberIds w.db target ids u.username w.now
      exact ⟨.create _ _ run _ nofun hfresh hlt rfl, evolves_decisionFromMemberIds _ _ _ _,
        fun hs ↦ hs.decisionFromMemberIds halive _ _ _ _⟩
  | rerun u runId =>
    obtain ⟨-, -, target, db, d, run, -, -, -, -, hresolve, hfresh, rfl⟩ :=
      rerunFleetBulkOp_eq_ok (ExceptResult.eq_ok_of_toOption h)
    cases resolveTarget_eq_ok hresolve
    have hlt := lt_length_decisionFromMemberIds w.db target
      ((resolveMembers w.db u target.selector.labelFilters target.pinnedMemberIds).map
        FleetMember.id) u.username w.now
    exact ⟨.create _ _ run _ nofun hfresh hlt rfl, evolves_decisionFromMemberIds _ _ _ _,
      fun hs ↦ hs.decisionFromMemberIds alive_of_mem_resolveMembers _ _ _ _⟩
  | enforce u policyId =>
    obtain rfl | ⟨target, ids, run, hids, hfresh, rfl⟩ :=
      enforceFleetPolicy_eq_ok (ExceptResult.eq_ok_of_toOption h)
    · exact ⟨.other _ _ nofun rfl, Evolves.refl _, id⟩
    · have halive : ∀ id ∈ ids, Alive w.db id := by
        intro id hid
        obtain ⟨m, hm, rfl⟩ := hids id hid
        exact ⟨m, mem_of_mem_scopedMembers hm, rfl⟩
      have hlt := lt_length_decisionFromMemberIds w.db target ids u.username w.now
      exact ⟨.create _ _ run _ nofun hfresh hlt rfl, evolves_decisionFromMemberIds _ _ _ _,
        fun hs ↦ hs.decisionFromMemberIds halive _ _ _ _⟩
  | addMember m =>
    dsimp only at h
    split at h
    · next hknown =>
      cases h
      exact ⟨.other _ _ nofun rfl, evolves_addMember m hknown,
        fun hs ↦ hs.of_eq (w.db.addMember m hknown) (Nat.le_succ _) rfl _ _⟩
    · cases h
  | changeMember m =>
    dsimp only at h
    split at h
    · next hknown =>
      cases h
      exact ⟨.other _ _ nofun rfl, evolves_setMember m hknown,
        fun hs ↦ hs.of_eq (w.db.setMember m hknown) le_rfl rfl _ _⟩
    · cases h
  | removeMember id =>
    cases h
    exact ⟨.other _ _ nofun rfl, evolves_removeMember id,
      fun hs ↦ hs.of_eq (w.db.removeMember id) le_rfl rfl _ _⟩
  | removeProject projectId =>
    cases h
    exact ⟨.other _ _ nofun rfl, evolves_removeProject projectId,
      fun hs ↦ hs.of_eq (w.db.removeProject projectId) le_rfl rfl _ _⟩
  | resolveRead u targetId =>
    dsimp only at h
    split at h
    · next r hr =>
      cases h
      refine ⟨.other _ _ nofun rfl, Evolves.refl _, fun hs ↦ ⟨hs.decisions, fun r' hr' ↦ ?_⟩⟩
      rcases mem_append.mp hr' with hr' | hr'
      · exact hs.resolutions r' hr'
      · rw [mem_singleton.mp hr']
        exact membersKnown_resolveFleetTarget hr
    · cases h
  | resolveCommit i =>
    dsimp only at h
    split at h
    · next r hr =>
      cases h
      refine ⟨.other _ _ nofun rfl, evolves_recordDecision _ _, fun hs ↦ ⟨?_, fun r' hr' ↦ ?_⟩⟩
      · exact hs.recordDecision (hs.resolutions r (mem_of_getElem? hr)) _
      · exact hs.resolutions r' (mem_of_mem_eraseIdx hr')
    · cases h
  | _ =>
    -- the other tables and the clock
    cases h
    refine ⟨.other _ _ nofun rfl, evolves_of_eq rfl rfl rfl, fun hs ↦ hs.of_eq _ ?_ ?_ _ _⟩
    · exact le_rfl
    · rfl

theorem jobsStep_of_step (h : step w e = some w') : JobsStep w e w' := (spec_of_step h).1

theorem evolves_step (h : step w e = some w') : Evolves w.db w'.db := (spec_of_step h).2.1

theorem sound_step (hs : Sound w) (h : step w e = some w') : Sound w' := (spec_of_step h).2.2 hs

variable {r : Nat} {j j' : Job}

theorem JobsStep.forward (h : JobsStep w e w') (hj : w.jobs[r]? = some j) :
    ∃ j', w'.jobs[r]? = some j' ∧
      (j' = j ∨ ∃ re, e = .run r re ∧ JobStep w.db w.now j re w'.db j') := by
  have hlt : r < w.jobs.length := (List.getElem?_eq_some_iff.mp hj).1
  cases h with
  | run runId re j₀ j₁ db hj₀ hstep =>
    by_cases hr : runId = r
    · subst hr
      cases hj.symm.trans hj₀
      exact ⟨j₁, by rw [getElem?_set_self hlt], Or.inr ⟨re, rfl, hstep⟩⟩
    · exact ⟨j, by rw [getElem?_set_ne hr, hj], Or.inl rfl⟩
  | create _ _ run decisionId hnot hfresh hdecision hjobs =>
    exact ⟨j, by rw [hjobs, getElem?_append_left hlt, hj], Or.inl rfl⟩
  | other _ _ hnot hjobs => exact ⟨j, by rw [hjobs, hj], Or.inl rfl⟩

theorem JobsStep.backward (h : JobsStep w e w') (hj' : w'.jobs[r]? = some j') :
    (∃ j, w.jobs[r]? = some j ∧
      (j' = j ∨ ∃ re, e = .run r re ∧ JobStep w.db w.now j re w'.db j')) ∨
    (r = w.jobs.length ∧ (∀ runId re, e ≠ .run runId re) ∧
      ∃ run decisionId, FreshRun run decisionId ∧ decisionId < w'.db.decisions.length ∧
        j' = ⟨run, [], true, 0, .idle, 0, 0, []⟩) := by
  by_cases hlt : r < w.jobs.length
  · obtain ⟨j₁, hj₁, hor⟩ := h.forward (getElem?_eq_getElem hlt)
    cases hj'.symm.trans hj₁
    exact Or.inl ⟨_, getElem?_eq_getElem hlt, hor⟩
  · have hlt' : r < w'.jobs.length := (List.getElem?_eq_some_iff.mp hj').1
    cases h with
    | run runId re j₀ j₁ db hj₀ hstep =>
      rw [length_set] at hlt'
      exact absurd hlt' hlt
    | create _ _ run decisionId hnot hfresh hdecision hjobs =>
      rw [hjobs, length_append, length_singleton] at hlt'
      have hr : r = w.jobs.length := by omega
      rw [hjobs, hr, getElem?_concat_length, Option.some.injEq] at hj'
      exact Or.inr ⟨hr, hnot, run, decisionId, hfresh, hdecision, hj'.symm⟩
    | other _ _ hnot hjobs =>
      rw [hjobs] at hlt'
      exact absurd hlt' hlt

end Steps

theorem no_jobs_initial (db : Db) (now : Int) (r : Nat) (j : Job) :
    (World.initial db now).jobs[r]? ≠ some j := by
  simp [World.initial]

theorem jobs_step {P : Db → Job → Prop} {w w' : World} {e : Event}
    (hjobs : ∀ (r : Nat) j, w.jobs[r]? = some j → P w.db j) (hst : step w e = some w')
    (hfresh : ∀ run decisionId, FreshRun run decisionId → decisionId < w'.db.decisions.length →
      P w'.db ⟨run, [], true, 0, .idle, 0, 0, []⟩)
    (hevolves : ∀ db db' j, P db j → Evolves db db' → P db' j)
    (hstep : ∀ (r : Nat) re j j', e = .run r re → w.jobs[r]? = some j → P w.db j →
      JobStep w.db w.now j re w'.db j' → P w'.db j') :
    ∀ (r : Nat) j, w'.jobs[r]? = some j → P w'.db j := by
  intro r j' hj'
  rcases (jobsStep_of_step hst).backward hj' with
    ⟨j, hj, rfl | ⟨re, he, hjob⟩⟩ | ⟨-, -, run, decisionId, hf, hlt, rfl⟩
  · exact hevolves _ _ _ (hjobs r _ hj) (evolves_step hst)
  · exact hstep r re j j' he hj (hjobs r j hj) hjob
  · exact hfresh run decisionId hf hlt

theorem jobs_invariant {ok : World → Event → Prop} {P : Db → Job → Prop} {db : Db} {now : Int}
    {w : World} {es : List Event} (hrun : Run step ok (.initial db now) es w)
    (hfresh : ∀ (w : World) run decisionId, Sound w → FreshRun run decisionId →
      decisionId < w.db.decisions.length → P w.db ⟨run, [], true, 0, .idle, 0, 0, []⟩)
    (hevolves : ∀ db db' j, P db j → Evolves db db' → P db' j)
    (hstep : ∀ (w : World) (r : Nat) re j db' j', ok w (.run r re) → w.jobs[r]? = some j →
      P w.db j → JobStep w.db w.now j re db' j' → P db' j') :
    ∀ (r : Nat) j, w.jobs[r]? = some j → P w.db j := by
  refine (Run.invariant (P := fun w ↦ Sound w ∧ ∀ (r : Nat) j, w.jobs[r]? = some j → P w.db j)
    hrun ⟨sound_initial db now, fun r j hj ↦ absurd hj (no_jobs_initial db now r j)⟩ ?_).2
  rintro a e b ⟨hsa, ha⟩ hok hst
  have hsb := sound_step hsa hst
  refine ⟨hsb, jobs_step ha hst (fun run k ↦ hfresh b run k hsb) hevolves ?_⟩
  rintro r re j j' rfl hj h hjob
  exact hstep a r re j b.db j' hok hj h hjob

/-! ### Before and after the first commit of a run -/

/-- The phases up to the first commit of a run that is not resumed. -/
def Phase.starting : Phase → Bool
  | .received false | .entered false | .loaded false _ | .planned false _ => true
  | _ => false

/-- Nothing of the run has been committed but its refusal or its cancellation. -/
structure Unstarted (j : Job) : Prop where
  log : j.log = []
  results : j.results = []
  currentWaveIndex : j.run.currentWaveIndex = 0
  status : j.run.status = .pending ∨ j.run.status = .failed ∨ j.run.status = .cancelled
  resumes : j.resumes = 0
  resumeMessages : j.resumeMessages = 0
  phase : j.phase = .idle ∨ j.phase.starting = true ∨ ∃ error, j.phase = .refusing error
  startMessage : j.startMessage = true → j.phase = .idle

/-- The first commit comes once, from the message of the route that has created the run. -/
structure StartsOnce (j : Job) : Prop where
  before : j.run.startedAt = none → Unstarted j
  after : j.run.startedAt ≠ none → j.startMessage = false ∧ j.phase.starting = false

section StartsOnce

variable {db db' : Db} {now : Int} {j j' : Job} {e : RunEvent}

private theorem Unstarted.not_paused (h : Unstarted j) : j.run.status ≠ .pausedGate := by
  rcases h.status with hs | hs | hs <;> rw [hs] <;> decide

private theorem starting_of_phase (h : Unstarted j) {phase : Phase} (hphase : j.phase = phase)
    (hidle : phase ≠ .idle) (hrefusing : ∀ error, phase ≠ .refusing error) :
    phase.starting = true := by
  rcases h.phase with hp | hp | ⟨error, hp⟩
  · exact absurd (hphase.symm.trans hp) hidle
  · exact hphase ▸ hp
  · exact absurd (hphase.symm.trans hp) (hrefusing error)

private theorem Unstarted.enter (h : Unstarted j) {phase : Phase}
    (hphase : phase = .idle ∨ phase.starting = true ∨ ∃ error, phase = .refusing error)
    (hbusy : j.startMessage = false ∨ phase = .idle) : Unstarted (j.enter phase) where
  log := h.log
  results := h.results
  currentWaveIndex := h.currentWaveIndex
  status := h.status
  resumes := h.resumes
  resumeMessages := h.resumeMessages
  phase := hphase
  startMessage := by
    intro hmessage
    rcases hbusy with hbusy | hbusy
    · exact absurd (hbusy.symm.trans hmessage) (by decide)
    · exact hbusy

private theorem Unstarted.taken (h : Unstarted j) {phase : Phase} (hphase : j.phase = phase)
    (hidle : phase ≠ .idle) : j.startMessage = false := by
  by_contra hmessage
  exact hidle (hphase.symm.trans (h.startMessage (Bool.not_eq_false _ ▸ hmessage)))

@[simp]
theorem starting_received (b : Bool) : (Phase.received b).starting = !b := by cases b <;> rfl

@[simp]
theorem starting_entered (b : Bool) : (Phase.entered b).starting = !b := by cases b <;> rfl

@[simp]
theorem starting_loaded (b : Bool) (d : FleetDecision) : (Phase.loaded b d).starting = !b := by
  cases b <;> rfl

@[simp]
theorem starting_planned (b : Bool) (plan : Plan) : (Phase.planned b plan).starting = !b := by
  cases b <;> rfl

theorem starting_from (plan : Plan) (i : Nat) : (plan.from i).starting = false := by
  unfold Plan.from
  split <;> rfl

private theorem Unstarted.startsOnce (h : Unstarted j) (hn : j.run.startedAt = none) :
    StartsOnce j :=
  ⟨fun _ ↦ h, fun hne ↦ absurd hn hne⟩

private theorem Unstarted.step (h : Unstarted j) (hn : j.run.startedAt = none)
    (hstep : JobStep db now j e db' j') : StartsOnce j' := by
  cases hstep with
  | receiveStart hphase hmessage =>
    exact Unstarted.startsOnce ⟨h.log, h.results, h.currentWaveIndex, h.status, h.resumes,
      h.resumeMessages, Or.inr (Or.inl rfl), nofun⟩ hn
  | receiveResume hphase hstatus => exact absurd hstatus h.not_paused
  | dropResume hphase hstatus =>
    have hmessages : j.resumeMessages - 1 = 0 := by rw [h.resumeMessages]
    exact Unstarted.startsOnce ⟨h.log, h.results, h.currentWaveIndex, h.status, h.resumes,
      hmessages, h.phase, h.startMessage⟩ hn
  | reject resuming hphase => exact (h.enter (Or.inl rfl) (Or.inr rfl)).startsOnce hn
  | readRun resuming hphase _ _ =>
    have hs := starting_of_phase h hphase nofun nofun
    rw [starting_received] at hs
    have hbusy := h.taken hphase nofun
    refine (h.enter (Or.inr (Or.inl ?_)) (Or.inl hbusy)).startsOnce hn
    rwa [starting_entered]
  | readDecision resuming decision hphase _ =>
    have hs := starting_of_phase h hphase nofun nofun
    rw [starting_entered] at hs
    have hbusy := h.taken hphase nofun
    refine (h.enter (Or.inr (Or.inl ?_)) (Or.inl hbusy)).startsOnce hn
    rwa [starting_loaded]
  | refuse _ error _ hphase =>
    have hbusy : j.startMessage = false := by
      rcases hphase with ⟨resuming, hphase⟩ | ⟨resuming, decision, hphase⟩
      · exact h.taken hphase nofun
      · exact h.taken hphase nofun
    exact (h.enter (Or.inr (Or.inr ⟨error, rfl⟩)) (Or.inl hbusy)).startsOnce hn
  | checkMembers resuming decision hphase _ =>
    have hs := starting_of_phase h hphase nofun nofun
    rw [starting_loaded] at hs
    have hbusy := h.taken hphase nofun
    refine (h.enter (Or.inr (Or.inl ?_)) (Or.inl hbusy)).startsOnce hn
    rwa [starting_planned]
  | commitStart resuming plan hphase =>
    have hs := starting_of_phase h hphase nofun nofun
    rw [starting_planned, Bool.not_eq_true'] at hs
    subst hs
    exact ⟨nofun, fun _ ↦ ⟨h.taken hphase nofun, starting_from plan _⟩⟩
  | commitRefused error hphase =>
    exact Unstarted.startsOnce ⟨h.log, h.results, h.currentWaveIndex, Or.inr (Or.inl rfl),
      h.resumes, h.resumeMessages, Or.inl rfl, fun _ ↦ rfl⟩ hn
  | stop _ _ hphase | refresh _ _ hphase _ | openWave _ _ hphase _ | openFails _ _ hphase
  | dispatch _ _ _ _ _ hphase _ | lastWave _ _ hphase _ | nextWave _ _ hphase _
  | pause _ _ _ hphase _ | commitFailed _ hphase | commitCompleted hphase =>
    cases starting_of_phase h hphase nofun nofun
  | raise hphase =>
    rcases hphase with ⟨_, _, hphase⟩ | ⟨_, _, hphase⟩ | ⟨_, _, _, hphase⟩ | hphase
    all_goals cases starting_of_phase h hphase nofun nofun
  | crash => exact (h.enter (Or.inl rfl) (Or.inr rfl)).startsOnce hn
  | cancelRead _ _ =>
    exact Unstarted.startsOnce ⟨h.log, h.results, h.currentWaveIndex, h.status, h.resumes,
      h.resumeMessages, h.phase, h.startMessage⟩ hn
  | cancelCommit =>
    exact Unstarted.startsOnce ⟨h.log, h.results, h.currentWaveIndex, Or.inr (Or.inr rfl),
      h.resumes, h.resumeMessages, h.phase, h.startMessage⟩ hn
  | resumeRead _ hstatus => exact absurd hstatus h.not_paused
  | resumeCommit hresumes => exact absurd hresumes (by rw [h.resumes]; exact lt_irrefl 0)

private theorem startsOnce_of_started (hs : j.run.startedAt ≠ none)
    (h : j.startMessage = false ∧ j.phase.starting = false)
    (hstep : JobStep db now j e db' j') : StartsOnce j' := by
  obtain ⟨hmessage, hphase₀⟩ := h
  cases hstep with
  | receiveStart _ hmessage' => exact absurd (hmessage.symm.trans hmessage') (by decide)
  | readRun resuming hphase _ _ =>
    rw [hphase, starting_received] at hphase₀
    exact ⟨fun hn ↦ absurd hn hs, fun _ ↦ ⟨hmessage, (starting_entered resuming).trans hphase₀⟩⟩
  | readDecision resuming decision hphase _ =>
    rw [hphase, starting_entered] at hphase₀
    exact ⟨fun hn ↦ absurd hn hs, fun _ ↦ ⟨hmessage, (starting_loaded resuming _).trans hphase₀⟩⟩
  | checkMembers resuming decision hphase _ =>
    rw [hphase, starting_loaded] at hphase₀
    exact ⟨fun hn ↦ absurd hn hs, fun _ ↦ ⟨hmessage, (starting_planned resuming _).trans hphase₀⟩⟩
  | commitStart resuming plan hphase =>
    rw [hphase, starting_planned, Bool.not_eq_false'] at hphase₀
    subst hphase₀
    exact ⟨fun hn ↦ absurd hn hs, fun _ ↦ ⟨hmessage, starting_from plan _⟩⟩
  | dropResume _ _ | cancelRead _ _ | cancelCommit | resumeRead _ _ | resumeCommit _ =>
    exact ⟨fun hn ↦ absurd hn hs, fun _ ↦ ⟨hmessage, hphase₀⟩⟩
  | _ => exact ⟨fun hn ↦ absurd hn hs, fun _ ↦ ⟨hmessage, rfl⟩⟩

theorem StartsOnce.step (h : StartsOnce j) (hstep : JobStep db now j e db' j') :
    StartsOnce j' := by
  by_cases hn : j.run.startedAt = none
  · exact (h.before hn).step hn hstep
  · exact startsOnce_of_started hn (h.after hn) hstep

theorem startsOnce_fresh {run : FleetBulkRun} {decisionId : Nat} (h : FreshRun run decisionId) :
    StartsOnce ⟨run, [], true, 0, .idle, 0, 0, []⟩ :=
  Unstarted.startsOnce ⟨rfl, rfl, h.currentWaveIndex, Or.inl h.status, rfl, rfl, Or.inl rfl,
    fun _ ↦ rfl⟩ h.startedAt

end StartsOnce

/-! ### A small fleet -/

def siteCluster (id : Nat) (faultDomain : String) : FleetMember :=
  ⟨id, some 1, "cluster", "site", [], [("env", faultDomain)], some faultDomain, some "healthy",
    true⟩

def twoSites : Db where
  projects := [⟨1, some 1, none, none⟩]
  members := [siteCluster 1 "a", siteCluster 2 "b"]
  targets := [⟨1, none, .object none, [1, 2], false⟩]
  decisions := []
  strategies := [⟨1, .faultDomain, .timedWait, false⟩, ⟨2, .label "env", .timedWait, false⟩]
  policies := []
  nextMemberId := 3
  members_nodup := by decide
  members_lt := by decide
  members_project := by decide

def setEnv (strategyId : Option Nat) : BulkRunRequest :=
  ⟨.setLabels, [("env", "prod")], none, none, strategyId⟩

/-- Alice resolves the fleet and starts a run on the decision. -/
def aliceStarts (strategyId : Option Nat) : List Event :=
  [.resolveRead alice 1, .resolveCommit 0, .start alice 0 (setEnv strategyId)]

def executorStarts : List RunEvent :=
  [.receiveStart, .readRun, .readDecision, .checkMembers, .commitStart]

def executorResumes : List RunEvent :=
  [.receiveResume, .readRun, .readDecision, .checkMembers, .commitStart]

def waveOf (memberId : Nat) : List RunEvent :=
  [.refresh, .openWave, .dispatch memberId none, .gate]

end BnkForge.Fleet
