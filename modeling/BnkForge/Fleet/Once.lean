import BnkForge.Fleet.History
import Mathlib.Data.List.GetD

/-!
# One action for each member

A paused run keeps the index of its next wave, and the executor groups the members anew when the
run is resumed (`backend/services/fleet_bulkop_service.py:392–430`), from labels and fault domains
that others, or the run itself, may have changed meanwhile. The index fits the new waves where the
waves before it hold exactly the members that have been dispatched.
-/

namespace BnkForge.Fleet

open Transition List

/-- The members of the first `i` waves. -/
def Plan.before (plan : Plan) (i : Nat) : List Nat := (plan.waves.take i).flatten

/-- Of the members in the plan, those of the first `i` waves are the dispatched ones. -/
def Plan.Aligned (plan : Plan) (i : Nat) (log : List Nat) : Prop :=
  ∀ id ∈ plan.waves.flatten, id ∈ plan.before i ↔ id ∈ log

def Job.memberIds (db : Db) (j : Job) : List Nat :=
  (j.decision db).elim [] FleetDecision.resolvedMemberIds

def Event.regroups : Event → Option Nat
  | .run r .checkMembers => some r
  | _ => none

def Phase.resumed : Phase → Option FleetDecision
  | .loaded true decision => some decision
  | _ => none

/-- Whenever a resumed run is grouped anew, the waves before the stored index hold exactly the
members that have been dispatched. -/
def RegroupsAligned (w : World) (e : Event) : Prop :=
  ∀ r ∈ e.regroups, ∀ j ∈ w.jobs[r]?, ∀ decision ∈ j.phase.resumed,
    (planWaves w.db j.run.waveBy decision.resolvedMemberIds).Aligned j.run.currentWaveIndex j.log

instance (plan : Plan) (i : Nat) (log : List Nat) : Decidable (plan.Aligned i log) :=
  inferInstanceAs (Decidable (∀ id ∈ plan.waves.flatten, id ∈ plan.before i ↔ id ∈ log))

instance (w : World) (e : Event) : Decidable (RegroupsAligned w e) :=
  inferInstanceAs (Decidable (∀ r ∈ e.regroups, ∀ j ∈ w.jobs[r]?, ∀ decision ∈ j.phase.resumed,
    (planWaves w.db j.run.waveBy decision.resolvedMemberIds).Aligned j.run.currentWaveIndex j.log))

section Plan

variable {plan : Plan} {i id : Nat}

theorem Plan.before_succ (h : i < plan.waves.length) :
    plan.before (i + 1) = plan.before i ++ plan.wave i := by
  rw [Plan.before, Plan.before, Plan.wave, take_add_one, flatten_append,
    getElem?_eq_getElem h, getD_eq_getElem _ _ h]
  simp

theorem Plan.before_length (h : plan.waves.length ≤ i) : plan.before i = plan.waves.flatten := by
  rw [Plan.before, take_of_length_le h]

theorem Plan.not_mem_before (h : i < plan.waves.length) (hid : id ∈ plan.wave i) :
    id ∉ plan.before i := by
  intro hbefore
  obtain ⟨wave, hwave, hmem⟩ := mem_flatten.mp hbefore
  obtain ⟨k, hk, rfl⟩ := mem_take_iff_getElem.mp hwave
  rw [Plan.wave, getD_eq_getElem _ _ h] at hid
  have hki : k < i := hk.trans_le (Nat.min_le_left _ _)
  exact pairwise_iff_getElem.mp plan.disjoint k i _ h hki hmem hid

end Plan

/-! ### The invariant -/

/-- The members with a result row are the dispatched ones. -/
def Job.Recorded (j : Job) : Prop := ∀ id, id ∈ j.results ↔ id ∈ j.log

/-- What holds while the executor is in the given phase, for a decision over `ids` of which
`alive` are still there. -/
def OnceIn (ids : List Nat) (alive : Nat → Prop) (j : Job) : Phase → Prop
  | .idle | .received _ => j.run.status = .pending ∨ j.run.status = .pausedGate → j.Recorded
  | .entered _ | .refusing _ => j.Recorded
  | .loaded _ decision => j.Recorded ∧ decision.resolvedMemberIds = ids
  | .planned _ plan =>
    j.Recorded ∧ (∀ id ∈ ids, alive id → id ∈ plan.waves.flatten) ∧
      plan.Aligned j.run.currentWaveIndex j.log
  | .boundary plan i | .opening plan i =>
    j.Recorded ∧ (∀ id ∈ ids, alive id → id ∈ plan.waves.flatten) ∧ i < plan.waves.length ∧
      plan.Aligned i j.log
  | .dispatching plan i pending =>
    (∀ id, id ∈ j.results ↔ id ∈ j.log ∨ id ∈ pending) ∧
      (∀ id ∈ ids, alive id → id ∈ plan.waves.flatten) ∧ i < plan.waves.length ∧
      pending.Nodup ∧ (∀ id ∈ pending, id ∉ j.log) ∧
      ∀ id ∈ plan.waves.flatten, id ∈ plan.before (i + 1) ↔ id ∈ j.log ∨ id ∈ pending
  | .failing => True
  | .ending => ∀ id ∈ ids, alive id → id ∈ j.log

/-- The phases after the first commit. -/
def Phase.looping : Phase → Bool
  | .boundary _ _ | .opening _ _ | .dispatching _ _ _ | .failing | .ending => true
  | _ => false

/-- No member is dispatched twice, and a completed run has dispatched all that are still there. -/
structure Once (db : Db) (j : Job) : Prop where
  startsOnce : StartsOnce j
  decision : ∃ d, j.decision db = some d ∧ MembersKnown db d
  nodup : j.log.Nodup
  phase : OnceIn (j.memberIds db) (Alive db) j j.phase
  looping : j.phase.looping = true → j.run.status ≠ .pending ∧ j.run.status ≠ .pausedGate
  completed : j.run.status = .completed → ∀ id ∈ j.memberIds db, Alive db id → id ∈ j.log

section Once

variable {db db' : Db} {now : Int} {j j' : Job} {e : RunEvent}

theorem OnceIn.mono {ids : List Nat} {alive alive' : Nat → Prop}
    (h : ∀ id ∈ ids, alive' id → alive id) {phase : Phase} (hj : OnceIn ids alive j phase) :
    OnceIn ids alive' j phase := by
  have hcover : ∀ {s : List Nat}, (∀ id ∈ ids, alive id → id ∈ s) →
      ∀ id ∈ ids, alive' id → id ∈ s :=
    fun hs id hid halive ↦ hs id hid (h id hid halive)
  cases phase with
  | planned _ plan => exact ⟨hj.1, hcover hj.2.1, hj.2.2⟩
  | boundary plan i => exact ⟨hj.1, hcover hj.2.1, hj.2.2⟩
  | opening plan i => exact ⟨hj.1, hcover hj.2.1, hj.2.2⟩
  | dispatching plan i pending => exact ⟨hj.1, hcover hj.2.1, hj.2.2⟩
  | ending => exact hcover hj
  | _ => exact hj

theorem Once.evolves (h : Once db j) (hev : Evolves db db') : Once db' j := by
  obtain ⟨d, hd, hknown⟩ := h.decision
  obtain ⟨d', hd', hage⟩ := hev.decisions _ d hd
  have hids : j.memberIds db' = j.memberIds db := by
    rw [Job.memberIds, Job.memberIds, hd, Job.decision, hd']
    exact hage.members
  have hmem : j.memberIds db = d.resolvedMemberIds := by
    rw [Job.memberIds, hd]
    rfl
  have halive : ∀ id ∈ j.memberIds db, Alive db' id → Alive db id := by
    intro id hid
    exact hev.alive id (hknown id (hmem ▸ hid))
  refine ⟨h.startsOnce, ⟨d', hd', ?_⟩, h.nodup, ?_, h.looping, ?_⟩
  · intro id hid
    exact (hknown id (hage.members ▸ hid)).trans_le hev.next_le
  · rw [hids]
    exact h.phase.mono halive
  · intro hc id hid ha
    rw [hids] at hid
    exact h.completed hc id hid (halive id hid ha)

theorem once_fresh {run : FleetBulkRun} {decisionId : Nat} {w : World} (hs : Sound w)
    (h : FreshRun run decisionId) (hlt : decisionId < w.db.decisions.length) :
    Once w.db ⟨run, [], true, 0, .idle, 0, 0, []⟩ := by
  refine ⟨startsOnce_fresh h, ⟨w.db.decisions[decisionId], ?_, ?_⟩, nodup_nil, ?_, nofun, ?_⟩
  · rw [Job.decision, h.decisionId, getElem?_eq_getElem hlt]
  · exact hs.decisions _ (getElem_mem hlt)
  · intro _ id
    exact Iff.rfl
  · intro hc
    exact absurd (h.status.symm.trans hc) (by decide)

private theorem Once.enter (h : Once db j) {phase : Phase} (hs : StartsOnce (j.enter phase))
    (hphase : OnceIn (j.memberIds db) (Alive db) j phase)
    (hloop : phase.looping = true → j.phase.looping = true) : Once db (j.enter phase) where
  startsOnce := hs
  decision := h.decision
  nodup := h.nodup
  phase := by
    cases phase <;> exact hphase
  looping := fun hl ↦ h.looping (hloop hl)
  completed := h.completed

private theorem Once.giveUp (h : Once db j) (hs : StartsOnce (j.enter .idle)) :
    Once db (j.enter .idle) := by
  refine h.enter hs (fun hstatus ↦ ?_) nofun
  have hp := h.phase
  cases hphase : j.phase with
  | idle | received _ =>
    rw [hphase] at hp
    exact hp hstatus
  | entered _ | refusing _ =>
    rw [hphase] at hp
    exact hp
  | loaded _ _ | planned _ _ | boundary _ _ | opening _ _ =>
    rw [hphase] at hp
    exact hp.1
  | dispatching _ _ _ | failing | ending =>
    -- a run in its loop is neither pending nor paused
    have hl := h.looping (by rw [hphase]; rfl)
    rcases hstatus with hstatus | hstatus
    · exact absurd hstatus hl.1
    · exact absurd hstatus hl.2

private theorem Once.setStatus (h : Once db j) (hs : StartsOnce j')
    (hrun : j'.run.decisionId = j.run.decisionId)
    (hindex : j'.run.currentWaveIndex = j.run.currentWaveIndex) (hlog : j'.log = j.log)
    (hresults : j'.results = j.results) (hphase : j'.phase = j.phase ∨ j'.phase = .idle)
    (hpending : j'.run.status ≠ .pending) (hpaused : j'.run.status ≠ .pausedGate)
    (hcompleted : j'.run.status ≠ .completed) : Once db j' := by
  have hd : j'.decision db = j.decision db := by rw [Job.decision, Job.decision, hrun]
  have hids : j'.memberIds db = j.memberIds db := by rw [Job.memberIds, Job.memberIds, hd]
  refine ⟨hs, hd ▸ h.decision, hlog ▸ h.nodup, ?_, fun _ ↦ ⟨hpending, hpaused⟩,
    fun hc ↦ absurd hc hcompleted⟩
  rw [hids]
  have hrest : ∀ P : Prop, j'.run.status = .pending ∨ j'.run.status = .pausedGate → P := by
    rintro P (hst | hst)
    · exact absurd hst hpending
    · exact absurd hst hpaused
  rcases hphase with hphase | hphase
  · have hp := h.phase
    rw [hphase]
    cases hph : j.phase with
    | idle | received _ => exact hrest _
    | failing => exact trivial
    | _ =>
      rw [hph] at hp
      simp only [OnceIn, Job.Recorded, hlog, hresults, hindex] at hp ⊢
      exact hp
  · rw [hphase]
    exact hrest _

private theorem once_checkMembers {resuming : Bool} {decision : FleetDecision} (h : Once db j)
    (hphase : j.phase = .loaded resuming decision)
    (hs : StartsOnce (j.enter (.planned resuming
      (planWaves db j.run.waveBy decision.resolvedMemberIds))))
    (haligned : resuming = true → (planWaves db j.run.waveBy decision.resolvedMemberIds).Aligned
      j.run.currentWaveIndex j.log) :
    Once db (j.enter (.planned resuming
      (planWaves db j.run.waveBy decision.resolvedMemberIds))) := by
  have hp := h.phase
  rw [hphase] at hp
  obtain ⟨hrec, hids⟩ := hp
  refine h.enter hs ⟨hrec, fun id hid halive ↦ ?_, ?_⟩ nofun
  · exact mem_planWaves.mpr ⟨hids ▸ hid, halive⟩
  · cases resuming with
    | true => exact haligned rfl
    | false =>
      -- nothing has been dispatched before the first commit
      have hun : Unstarted j := by
        refine h.startsOnce.before ?_
        by_contra hne
        have := (h.startsOnce.after hne).2
        rw [hphase] at this
        cases this
      intro id _
      rw [hun.log, hun.currentWaveIndex, Plan.before, take_zero]
      exact Iff.rfl

private theorem once_commitStart {resuming : Bool} {plan : Plan} (h : Once db j)
    (hphase : j.phase = .planned resuming plan) {startedAt : Option Int}
    (hs : StartsOnce { j with
      run := { j.run with
        status := .running
        totalWaves := some plan.waves.length
        startedAt := startedAt }
      phase := plan.from j.run.currentWaveIndex }) :
    Once db { j with
      run := { j.run with
        status := .running
        totalWaves := some plan.waves.length
        startedAt := startedAt }
      phase := plan.from j.run.currentWaveIndex } := by
  have hp := h.phase
  rw [hphase] at hp
  obtain ⟨hrec, hcover, haligned⟩ := hp
  refine ⟨hs, h.decision, h.nodup, ?_, fun _ ↦ ⟨nofun, nofun⟩, nofun⟩
  unfold Plan.from
  dsimp only
  split
  · next hlt => exact ⟨hrec, hcover, hlt, haligned⟩
  · next hge =>
    intro id hid halive
    have hmem := hcover id hid halive
    refine (haligned id hmem).mp ?_
    rwa [Plan.before_length (Nat.le_of_not_lt hge)]

private theorem once_openWave {plan : Plan} {i : Nat} (h : Once db j)
    (hphase : j.phase = .opening plan i)
    (hnodup : ((plan.wave i).filter fun id ↦ !j.results.contains id).Nodup)
    (hs : StartsOnce { j with
      run := { j.run with currentWaveIndex := i }
      results := j.results ++ (plan.wave i).filter fun id ↦ !j.results.contains id
      phase := .dispatching plan i (plan.wave i) }) :
    Once db { j with
      run := { j.run with currentWaveIndex := i }
      results := j.results ++ (plan.wave i).filter fun id ↦ !j.results.contains id
      phase := .dispatching plan i (plan.wave i) } := by
  have hp := h.phase
  rw [hphase] at hp
  obtain ⟨hrec, hcover, hlt, haligned⟩ := hp
  have hnew : ∀ id ∈ plan.wave i, id ∉ j.log := by
    intro id hid hlog
    exact Plan.not_mem_before hlt hid ((haligned id (plan.wave_subset i id hid)).mpr hlog)
  have hfilter : (plan.wave i).filter (fun id ↦ !j.results.contains id) = plan.wave i := by
    refine filter_eq_self.mpr fun id hid ↦ ?_
    have hres : id ∉ j.results := fun hres ↦ hnew id hid ((hrec id).mp hres)
    simpa using hres
  rw [hfilter] at hnodup hs ⊢
  refine ⟨hs, h.decision, h.nodup, ⟨?_, hcover, hlt, hnodup, hnew, ?_⟩,
    fun _ ↦ h.looping (by rw [hphase]; rfl), h.completed⟩
  · intro id
    rw [mem_append, hrec id]
  · intro id hid
    rw [Plan.before_succ hlt, mem_append, haligned id hid]

private theorem once_dispatch {plan : Plan} {i memberId : Nat} {pending : List Nat} (h : Once db j)
    (hphase : j.phase = .dispatching plan i pending) (hmem : memberId ∈ pending)
    (hs : StartsOnce { j with
      phase := .dispatching plan i (pending.erase memberId)
      log := j.log ++ [memberId] }) :
    Once db { j with
      phase := .dispatching plan i (pending.erase memberId)
      log := j.log ++ [memberId] } := by
  have hp := h.phase
  rw [hphase] at hp
  obtain ⟨hres, hcover, hlt, hnodup, hnew, hbefore⟩ := hp
  have hsplit : ∀ id, id ∈ j.log ∨ id ∈ pending ↔
      id ∈ j.log ++ [memberId] ∨ id ∈ pending.erase memberId := by
    intro id
    rw [mem_append, mem_singleton, hnodup.mem_erase_iff]
    by_cases hid : id = memberId
    · simp [hid, hmem]
    · simp [hid]
  refine ⟨hs, h.decision, ?_, ⟨fun id ↦ (hres id).trans (hsplit id), hcover, hlt,
    hnodup.erase _, ?_, fun id hid ↦ (hbefore id hid).trans (hsplit id)⟩, fun _ ↦ h.looping (by rw [hphase]; rfl), ?_⟩
  · rw [nodup_append]
    refine ⟨h.nodup, nodup_singleton _, ?_⟩
    intro a ha b hb hab
    rw [hab, mem_singleton.mp hb] at ha
    exact hnew memberId hmem ha
  · intro id hid hlog
    rw [hnodup.mem_erase_iff] at hid
    rcases mem_append.mp hlog with hlog | hlog
    · exact hnew id hid.2 hlog
    · exact hid.1 (mem_singleton.mp hlog)
  · intro hc id hid halive
    exact mem_append_left _ (h.completed hc id hid halive)

private theorem Once.wave_done {plan : Plan} {i : Nat} (h : Once db j)
    (hphase : j.phase = .dispatching plan i []) :
    j.Recorded ∧ (∀ id ∈ j.memberIds db, Alive db id → id ∈ plan.waves.flatten) ∧
      i < plan.waves.length ∧ plan.Aligned (i + 1) j.log := by
  have hp := h.phase
  rw [hphase] at hp
  obtain ⟨hres, hcover, hlt, -, -, hbefore⟩ := hp
  have hnil : ∀ id : Nat, id ∈ j.log ∨ id ∈ ([] : List Nat) ↔ id ∈ j.log := by
    intro id
    simp
  exact ⟨fun id ↦ (hres id).trans (hnil id), hcover, hlt,
    fun id hid ↦ (hbefore id hid).trans (hnil id)⟩

private theorem Once.step_before (h : Once db j) (hstep : JobStep db now j e db' j')
    (haligned : e = .checkMembers → ∀ decision ∈ j.phase.resumed,
      (planWaves db j.run.waveBy decision.resolvedMemberIds).Aligned j.run.currentWaveIndex
        j.log) : Once db j' := by
  have hs := h.startsOnce.step hstep
  have hp := h.phase
  cases hstep with
  | receiveStart hphase _ | receiveResume hphase _ =>
    rw [hphase] at hp
    exact ⟨hs, h.decision, h.nodup, hp, nofun, h.completed⟩
  | dropResume hphase _ =>
    refine ⟨hs, h.decision, h.nodup, ?_, h.looping, h.completed⟩
    rw [hphase] at hp ⊢
    exact hp
  | reject resuming hphase =>
    rw [hphase] at hp
    exact h.enter hs hp nofun
  | readRun resuming hphase hterminal hrunning =>
    rw [hphase] at hp
    refine h.enter hs (hp ?_) nofun
    cases hstatus : j.run.status with
    | pending => exact Or.inl rfl
    | pausedGate => exact Or.inr rfl
    | running => exact absurd hstatus hrunning
    | completed | failed | cancelled =>
      rw [hstatus] at hterminal
      cases hterminal
  | readDecision resuming decision hphase hdecision =>
    rw [hphase] at hp
    refine h.enter hs ⟨hp, ?_⟩ nofun
    rw [Job.memberIds, hdecision]
    rfl
  | refuse _ error _ hphase =>
    refine h.enter hs ?_ nofun
    rcases hphase with ⟨_, hphase⟩ | ⟨_, _, hphase⟩
    · rw [hphase] at hp
      exact hp
    · rw [hphase] at hp
      exact hp.1
  | checkMembers resuming decision hphase _ =>
    refine once_checkMembers h hphase hs fun hresuming ↦ ?_
    subst hresuming
    exact haligned rfl decision (by rw [hphase]; rfl)
  | commitStart resuming plan hphase => exact once_commitStart h hphase hs
  | commitRefused error hphase =>
    exact h.setStatus hs rfl rfl rfl rfl (Or.inr rfl) nofun nofun nofun
  | stop plan i hphase =>
    rw [hphase] at hp
    exact h.enter hs (fun _ ↦ hp.1) nofun
  | refresh plan i hphase _ =>
    rw [hphase] at hp
    exact h.enter hs hp fun _ ↦ by rw [hphase]; rfl
  | openWave plan i hphase hnodup => exact once_openWave h hphase hnodup hs
  | openFails plan i hphase =>
    exact ⟨hs, h.decision, h.nodup, trivial, fun _ ↦ h.looping (by rw [hphase]; rfl), h.completed⟩
  | dispatch memberId facts plan i pending hphase hmem => exact once_dispatch h hphase hmem hs
  | lastWave plan i hphase hlast =>
    obtain ⟨-, hcover, -, hdone⟩ := h.wave_done hphase
    refine h.enter hs (fun id hid halive ↦ ?_) fun _ ↦ by rw [hphase]; rfl
    have hmem := hcover id hid halive
    refine (hdone id hmem).mp ?_
    rwa [Plan.before_length hlast.ge]
  | nextWave plan i hphase hlast =>
    obtain ⟨hrec, hcover, hlt, hdone⟩ := h.wave_done hphase
    exact h.enter hs ⟨hrec, hcover, by omega, hdone⟩ fun _ ↦ by rw [hphase]; rfl
  | pause plan i resumeMessages hphase _ =>
    obtain ⟨hrec, -, -, -⟩ := h.wave_done hphase
    exact ⟨hs, h.decision, h.nodup, fun _ ↦ hrec, nofun, nofun⟩
  | raise hphase =>
    refine h.enter hs trivial fun _ ↦ ?_
    rcases hphase with ⟨_, _, hphase⟩ | ⟨_, _, hphase⟩ | ⟨_, _, _, hphase⟩ | hphase
    all_goals
      rw [hphase]
      rfl
  | commitFailed message hphase =>
    exact h.setStatus hs rfl rfl rfl rfl (Or.inr rfl) nofun nofun nofun
  | commitCompleted hphase =>
    rw [hphase] at hp
    refine ⟨hs, h.decision, h.nodup, ?_, nofun, fun _ ↦ hp⟩
    rintro (hstatus | hstatus)
    · cases hstatus
    · cases hstatus
  | crash => exact h.giveUp hs
  | cancelRead _ _ | resumeRead _ _ =>
    refine ⟨hs, h.decision, h.nodup, ?_, h.looping, h.completed⟩
    cases hphase : j.phase <;> (rw [hphase] at hp; exact hp)
  | cancelCommit => exact h.setStatus hs rfl rfl rfl rfl (Or.inl rfl) nofun nofun nofun
  | resumeCommit _ => exact h.setStatus hs rfl rfl rfl rfl (Or.inl rfl) nofun nofun nofun

theorem Once.step (h : Once db j) (hstep : JobStep db now j e db' j')
    (haligned : e = .checkMembers → ∀ decision ∈ j.phase.resumed,
      (planWaves db j.run.waveBy decision.resolvedMemberIds).Aligned j.run.currentWaveIndex
        j.log) : Once db' j' :=
  (h.step_before hstep haligned).evolves hstep.evolves

end Once

/-- A completed run has dispatched each member of its decision that is still there exactly once,
where every resume has regrouped the members in line with what had been dispatched. -/
theorem completed_dispatched_once {db : Db} {now : Int} {es : List Event} {w : World} {r id : Nat}
    {j : Job} (hrun : Run step RegroupsAligned (.initial db now) es w) (hj : w.jobs[r]? = some j)
    (hcompleted : j.run.status = .completed) (hid : id ∈ j.memberIds w.db)
    (halive : Alive w.db id) : j.log.count id = 1 := by
  have honce : Once w.db j := by
    refine jobs_invariant hrun (fun w run k hs ↦ once_fresh hs) (fun _ _ _ ↦ Once.evolves) ?_ r j hj
    intro w r re j db' j' hok hj h hstep
    refine h.step hstep ?_
    rintro rfl
    exact hok r rfl j hj
  exact List.count_eq_one_of_mem honce.nodup (honce.completed hcompleted id hid halive)

def resumedRun (strategyId second : Nat) : List Event :=
  aliceStarts (some strategyId) ++
    (executorStarts ++ waveOf 1 ++ executorResumes ++ waveOf second ++
      [RunEvent.commitCompleted]).map (.run 0)

def resumedWorld (strategyId second : Nat) : World :=
  (exec step (.initial twoSites 0) (resumedRun strategyId second)).getD (.initial twoSites 0)

theorem completed_dispatched_once_byFaultDomain :
    ∃ j, Run step RegroupsAligned (.initial twoSites 0) (resumedRun 1 2) (resumedWorld 1 2) ∧
      (resumedWorld 1 2).jobs[0]? = some j ∧ j.run.status = .completed ∧ j.log.count 2 = 1 := by
  have hrun : Run step RegroupsAligned (.initial twoSites 0) (resumedRun 1 2) (resumedWorld 1 2) :=
    Run.iff_exec.mpr rfl
  obtain ⟨j, hj, hstatus, hids⟩ : ∃ j, (resumedWorld 1 2).jobs[0]? = some j ∧
      j.run.status = .completed ∧ j.memberIds (resumedWorld 1 2).db = [1, 2] :=
    ⟨_, rfl, rfl, rfl⟩
  have halive : Alive (resumedWorld 1 2).db 2 :=
    ⟨_, List.mem_cons_of_mem _ List.mem_cons_self, rfl⟩
  exact ⟨j, hrun, hj, hstatus,
    completed_dispatched_once hrun hj hstatus (by rw [hids]; decide) halive⟩

/-- A run by label sets that label: the member of the first wave is the second wave of the resumed
run, and the member of the second wave is left out. -/
theorem setLabels_reorders_waves :
    ∃ j, Run step Free (.initial twoSites 0) (resumedRun 2 1) (resumedWorld 2 1) ∧
      (resumedWorld 2 1).jobs[0]? = some j ∧ j.run.status = .completed ∧
      j.memberIds (resumedWorld 2 1).db = [1, 2] ∧ Alive (resumedWorld 2 1).db 2 ∧
      j.log.count 1 = 2 ∧ j.log.count 2 = 0 := by
  have hrun : Run step Free (.initial twoSites 0) (resumedRun 2 1) (resumedWorld 2 1) :=
    Run.free_iff_exec.mpr rfl
  have halive : Alive (resumedWorld 2 1).db 2 :=
    ⟨_, List.mem_cons_of_mem _ List.mem_cons_self, rfl⟩
  exact ⟨_, hrun, rfl, rfl, rfl, halive, rfl, rfl⟩

end BnkForge.Fleet
