import BnkForge.Fleet.History

/-!
# Decisions are used once

The executor checks that its decision is resolved on a row it has read earlier in the transaction,
and marks it consumed whatever the row says at the commit
(`backend/services/fleet_bulkop_service.py:64–108`, `:355–400`). Another executor may have consumed
the decision, or a new resolution of the target may have superseded it, in between.
-/

namespace BnkForge.Fleet

open Transition

def Event.consumes : Event → Option Nat
  | .run r .commitStart => some r
  | _ => none

def ConsumesResolved (w : World) (e : Event) : Prop :=
  ∀ r ∈ e.consumes, ∀ j ∈ w.jobs[r]?, j.phase.starting = true →
    ∀ d ∈ j.decision w.db, d.status = .resolved

instance (w : World) (e : Event) : Decidable (ConsumesResolved w e) :=
  inferInstanceAs (Decidable (∀ r ∈ e.consumes, ∀ j ∈ w.jobs[r]?, j.phase.starting = true →
    ∀ d ∈ j.decision w.db, d.status = .resolved))

def UsedOnce (w : World) : Prop :=
  ∀ (r r' : Nat) j j', w.jobs[r]? = some j → w.jobs[r']? = some j' →
    j.run.decisionId = j'.run.decisionId → j.log ≠ [] → j'.log ≠ [] → r = r'

/-- Runs whose decision is superseded in `w`, before they have consumed it, have dispatched
nothing in `w'`. -/
def SupersededUnused (w w' : World) : Prop :=
  ∀ (r : Nat) j d j', w.jobs[r]? = some j → j.run.startedAt = none → j.decision w.db = some d →
    d.status = .superseded → w'.jobs[r]? = some j' → j'.log = []

/-- The decision of the run is there, and a run that has started has spent it. -/
structure Spends (db : Db) (j : Job) : Prop where
  startsOnce : StartsOnce j
  decision : ∃ d, j.decision db = some d
  spent : j.run.startedAt ≠ none → ∀ d, j.decision db = some d → d.status ≠ .resolved

section Spends

variable {db db' : Db} {now : Int} {j j' : Job} {e : RunEvent} {w w' : World}
  {f : Event}

theorem JobStep.startedAt (h : JobStep db now j e db' j') :
    j'.run.startedAt = j.run.startedAt ∨
      e = .commitStart ∧ j.phase.starting = true ∧
        db' = db.setDecisionStatus j.run.decisionId .consumed := by
  cases h with
  | commitStart resuming plan hphase =>
    cases resuming with
    | true => exact Or.inl rfl
    | false =>
      refine Or.inr ⟨rfl, ?_, rfl⟩
      rw [hphase]
      rfl
  | _ => exact Or.inl rfl

private theorem Evolves.not_resolved (hev : Evolves db db') {d d' : FleetDecision}
    (hd : j.decision db = some d) (h : d.status ≠ .resolved) (hd' : j.decision db' = some d') :
    d'.status ≠ .resolved := by
  obtain ⟨d₁, hd₁, hage⟩ := hev.decisions _ d hd
  cases hd'.symm.trans hd₁
  exact fun hs ↦ h (hage.status hs)

theorem Spends.evolves (h : Spends db j) (hev : Evolves db db') : Spends db' j := by
  obtain ⟨d, hd⟩ := h.decision
  obtain ⟨d', hd', -⟩ := hev.decisions _ d hd
  exact ⟨h.startsOnce, ⟨d', hd'⟩, fun hs d₁ hd₁ ↦ hev.not_resolved hd (h.spent hs d hd) hd₁⟩

private theorem Spends.of_decisionId (h : Spends db j) (hs : StartsOnce j')
    (hid : j'.run.decisionId = j.run.decisionId) (hstarted : j'.run.startedAt = j.run.startedAt) :
    Spends db j' := by
  have hd : j'.decision db = j.decision db := by rw [Job.decision, Job.decision, hid]
  exact ⟨hs, hd ▸ h.decision, fun hne d hdec ↦ h.spent (hstarted ▸ hne) d (hd ▸ hdec)⟩

theorem Spends.step (h : Spends db j) (hstep : JobStep db now j e db' j') : Spends db' j' := by
  have hs := h.startsOnce.step hstep
  rcases hstep.startedAt with hstarted | ⟨-, -, hdb⟩
  · exact (h.of_decisionId hs hstep.decisionId hstarted).evolves hstep.evolves
  · obtain ⟨d, hd⟩ := h.decision
    have hconsumed : j'.decision db' = some { d with status := .consumed } := by
      rw [Job.decision] at hd
      rw [Job.decision, hstep.decisionId, hdb, Db.setDecisionStatus, List.getElem?_modify, hd]
      simp
    refine ⟨hs, ⟨_, hconsumed⟩, fun _ d' hd' ↦ ?_⟩
    cases hconsumed.symm.trans hd'
    exact nofun

theorem spends_fresh {run : FleetBulkRun} {decisionId : Nat} (h : FreshRun run decisionId)
    (hlt : decisionId < db.decisions.length) : Spends db ⟨run, [], true, 0, .idle, 0, 0, []⟩ := by
  refine ⟨startsOnce_fresh h, ⟨db.decisions[decisionId], ?_⟩, fun hs ↦ absurd h.startedAt hs⟩
  rw [Job.decision, h.decisionId, List.getElem?_eq_getElem hlt]

theorem spends_step (hst : Fleet.step w f = some w')
    (h : ∀ (r : Nat) j, w.jobs[r]? = some j → Spends w.db j) :
    ∀ (r : Nat) j, w'.jobs[r]? = some j → Spends w'.db j :=
  jobs_step h hst (fun _ _ ↦ spends_fresh) (fun _ _ _ ↦ Spends.evolves)
    (fun _ _ _ _ _ _ ↦ Spends.step)

theorem StartsOnce.started_of_log (h : StartsOnce j) (hlog : j.log ≠ []) :
    j.run.startedAt ≠ none :=
  fun hn ↦ hlog (h.before hn).log

end Spends

section SingleUse

variable {w w' : World} {e : Event} {j j' : Job} {r r' : Nat}

private theorem started_before_step (hst : step w e = some w') (hj' : w'.jobs[r]? = some j')
    (hstarted : j'.run.startedAt ≠ none) :
    ∃ j, w.jobs[r]? = some j ∧ j.run.decisionId = j'.run.decisionId ∧
      (j.run.startedAt ≠ none ∨ e.consumes = some r ∧ j.phase.starting = true) := by
  rcases (jobsStep_of_step hst).backward hj' with
    ⟨j, hj, rfl | ⟨re, rfl, hjob⟩⟩ | ⟨-, -, run, decisionId, hfresh, -, rfl⟩
  · exact ⟨_, hj, rfl, Or.inl hstarted⟩
  · refine ⟨j, hj, hjob.decisionId.symm, ?_⟩
    rcases hjob.startedAt with hsame | ⟨rfl, hstarting, -⟩
    · exact Or.inl (hsame ▸ hstarted)
    · exact Or.inr ⟨rfl, hstarting⟩
  · exact absurd hfresh.startedAt hstarted

def OneStarter (w : World) : Prop :=
  ∀ (r r' : Nat) j j', w.jobs[r]? = some j → w.jobs[r']? = some j' →
    j.run.decisionId = j'.run.decisionId → j.run.startedAt ≠ none → j'.run.startedAt ≠ none → r = r'

private theorem not_started_of_resolved
    (hspends : ∀ (r : Nat) j, w.jobs[r]? = some j → Spends w.db j) (hok : ConsumesResolved w e) (hj : w.jobs[r]? = some j) (hconsumes : e.consumes = some r)
    (hstarting : j.phase.starting = true) (hj' : w.jobs[r']? = some j')
    (hid : j.run.decisionId = j'.run.decisionId) : ¬ j'.run.startedAt ≠ none := by
  intro hstarted
  obtain ⟨d, hd⟩ := (hspends r j hj).decision
  have hresolved := hok r hconsumes j hj hstarting d hd
  refine (hspends r' j' hj').spent hstarted d ?_ hresolved
  rw [Job.decision, ← hid]
  exact hd

private theorem OneStarter.step (h : OneStarter w)
    (hspends : ∀ (r : Nat) j, w.jobs[r]? = some j → Spends w.db j) (hok : ConsumesResolved w e)
    (hst : Fleet.step w e = some w') : OneStarter w' := by
  intro r r' j₁ j₁' hj₁ hj₁' hid hs hs'
  obtain ⟨j, hj, hjid, hor⟩ := started_before_step hst hj₁ hs
  obtain ⟨j', hj', hjid', hor'⟩ := started_before_step hst hj₁' hs'
  have hid : j.run.decisionId = j'.run.decisionId := by rw [hjid, hjid', hid]
  rcases hor with hold | ⟨hc, hstarting⟩ <;> rcases hor' with hold' | ⟨hc', hstarting'⟩
  · exact h r r' j j' hj hj' hid hold hold'
  · exact absurd hold (not_started_of_resolved hspends hok hj' hc' hstarting' hj hid.symm)
  · exact absurd hold' (not_started_of_resolved hspends hok hj hc hstarting hj' hid)
  · exact Option.some.inj (hc.symm.trans hc')

private theorem unstarted_step (hok : ConsumesResolved w e) (hst : step w e = some w')
    (hj : w.jobs[r]? = some j) (hspends : Spends w.db j) (hn : j.run.startedAt = none)
    (hspent : ∀ d, j.decision w.db = some d → d.status ≠ .resolved) :
    ∃ j', w'.jobs[r]? = some j' ∧ Spends w'.db j' ∧ j'.run.startedAt = none ∧
      ∀ d, j'.decision w'.db = some d → d.status ≠ .resolved := by
  obtain ⟨d, hd⟩ := hspends.decision
  have hev := evolves_step hst
  obtain ⟨j', hj', rfl | ⟨re, rfl, hjob⟩⟩ := (jobsStep_of_step hst).forward hj
  · exact ⟨_, hj', hspends.evolves hev, hn, fun d' hd' ↦ hev.not_resolved hd (hspent d hd) hd'⟩
  · have hdec : ∀ db, j'.decision db = j.decision db := by
      intro db
      rw [Job.decision, Job.decision, hjob.decisionId]
    refine ⟨j', hj', hspends.step hjob, ?_, fun d' hd' ↦ ?_⟩
    · rcases hjob.startedAt with hsame | ⟨rfl, hstarting, -⟩
      · exact hsame.trans hn
      · exact absurd (hok r rfl j hj hstarting d hd) (hspent d hd)
    · exact hev.not_resolved hd (hspent d hd) (hdec _ ▸ hd')

/-- While every executor finds its decision still resolved when it consumes it, a decision is used
by at most one run, and by none that it was superseded for. -/
theorem decision_used_once {db : Db} {now : Int} {es es' : List Event}
    (hrun : Run Fleet.step ConsumesResolved (.initial db now) es w)
    (hrun' : Run Fleet.step ConsumesResolved w es' w') :
    UsedOnce w' ∧ SupersededUnused w w' := by
  let Good (w : World) : Prop :=
    (∀ (r : Nat) j, w.jobs[r]? = some j → Spends w.db j) ∧ OneStarter w
  have hkeep : ∀ a e b, Good a → ConsumesResolved a e → Fleet.step a e = some b → Good b :=
    fun a e b h hok hst ↦ ⟨spends_step hst h.1, h.2.step h.1 hok hst⟩
  have hinitial : Good (.initial db now) :=
    ⟨fun r j h ↦ absurd h (no_jobs_initial db now r j),
      fun r _ j _ h ↦ absurd h (no_jobs_initial db now r j)⟩
  have hgood := hrun.invariant hinitial hkeep
  constructor
  · obtain ⟨hspends, hone⟩ := hrun'.invariant hgood hkeep
    intro r r' j j' hj hj' hid hlog hlog'
    exact hone r r' j j' hj hj' hid ((hspends r j hj).startsOnce.started_of_log hlog)
      ((hspends r' j' hj').startsOnce.started_of_log hlog')
  · intro r j d j' hj hn hd hsuperseded hj'
    have hspent : ∀ d', j.decision w.db = some d' → d'.status ≠ .resolved := by
      intro d' hd'
      cases hd.symm.trans hd'
      rw [hsuperseded]
      decide
    obtain ⟨j₁, hj₁, hspends, hn₁, -⟩ := hrun'.invariant
      (P := fun w ↦ ∃ j, w.jobs[r]? = some j ∧ Spends w.db j ∧ j.run.startedAt = none ∧
        ∀ d, j.decision w.db = some d → d.status ≠ .resolved)
      ⟨j, hj, hgood.1 r j hj, hn, hspent⟩
      fun a e b ⟨j, hj, hs, hn, hspent⟩ hok hst ↦ unstarted_step hok hst hj hs hn hspent
    cases hj'.symm.trans hj₁
    exact (hspends.startsOnce.before hn₁).log

end SingleUse

def bothStart : List Event :=
  aliceStarts none ++ [.start alice 0 (setEnv none)] ++
    ([RunEvent.receiveStart, .readRun, .readDecision, .checkMembers].map (Event.run 0)) ++
    ((executorStarts ++ waveOf 1).map (Event.run 1)) ++
    (([RunEvent.commitStart] ++ waveOf 1).map (Event.run 0))

def oneStarts : List Event :=
  aliceStarts none ++ [.start alice 0 (setEnv none)] ++
    ((executorStarts ++ waveOf 1).map (Event.run 0)) ++
    ([RunEvent.receiveStart, .readRun, .readDecision, .checkMembers, .commitRefused].map
      (Event.run 1))

def twoSitesAfter (es : List Event) : World :=
  (exec step (.initial twoSites 0) es).getD (.initial twoSites 0)

theorem decision_used_once_oneStarts :
    Run step ConsumesResolved (.initial twoSites 0) oneStarts (twoSitesAfter oneStarts) ∧
      UsedOnce (twoSitesAfter oneStarts) := by
  have hrun : Run step ConsumesResolved (.initial twoSites 0) oneStarts (twoSitesAfter oneStarts) :=
    Run.iff_exec.mpr rfl
  exact ⟨hrun, (decision_used_once hrun (.nil _)).1⟩

/-- Two runs act on one decision. -/
theorem decision_used_twice :
    Run step Free (.initial twoSites 0) bothStart (twoSitesAfter bothStart) ∧
      ¬ UsedOnce (twoSitesAfter bothStart) := by
  refine ⟨Run.free_iff_exec.mpr rfl, fun h ↦ ?_⟩
  have hone := h 0 1 _ _ rfl rfl rfl nofun nofun
  exact absurd hone (by decide)

end BnkForge.Fleet
