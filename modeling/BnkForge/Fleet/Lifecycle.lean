import BnkForge.Fleet.History

/-!
# Ends of bulk runs

What the terminal statuses of a run are worth (`BULK_RUN_TERMINAL_STATUSES`,
`backend/models/fleet_targeting.py:59–63`), and what becomes of a paused run that is resumed. The
executor re-reads the status before a wave only, and writes it unconditionally at its start, at
every gate that blocks, at the end and in its exception handler
(`backend/services/fleet_bulkop_service.py:400–616`); the cancel and resume routes write it on
what they have read (`backend/routes/fleet.py:1586–1686`).
-/

namespace BnkForge.Fleet

open Transition

/-! ### Terminal statuses -/

def Job.commits (db : Db) (j : Job) : RunEvent → Bool
  | .commitStart | .commitRefused | .openWave | .commitFailed _ | .commitCompleted
  | .cancelCommit | .resumeCommit => true
  | .gate => j.gateBlocks db
  | _ => false

def InTime (db : Db) (j : Job) (e : RunEvent) : Prop :=
  j.commits db e = true →
    j.run.status.terminal = false ∨ e = .cancelCommit ∧ j.run.status = .cancelled

def CommitsInTime (w : World) : Event → Prop
  | .run r e => ∀ j ∈ w.jobs[r]?, InTime w.db j e
  | _ => True

instance (db : Db) (j : Job) (e : RunEvent) : Decidable (InTime db j e) :=
  inferInstanceAs (Decidable (_ → _))

instance (w : World) (e : Event) : Decidable (CommitsInTime w e) :=
  match e with
  | .run r e => inferInstanceAs (Decidable (∀ j ∈ w.jobs[r]?, InTime w.db j e))
  | .advance _ | .putProject _ | .removeProject _ | .addMember _ | .changeMember _
  | .removeMember _ | .putTarget _ | .putStrategy _ | .putPolicy _ | .resolveRead _ _
  | .resolveCommit _ | .start _ _ _ | .selection _ _ _ _ | .rerun _ _ | .enforce _ _ =>
    isTrue trivial

/-- The members of the wave that has started which are still to be dispatched. -/
def Job.inFlight (j : Job) : List Nat :=
  match j.phase with
  | .dispatching _ _ pending => pending
  | _ => []

/-- From `j` on a terminal status has stayed, and a cancelled run has dispatched members of the
wave in flight only. -/
structure StaysEnded (j j' : Job) : Prop where
  status : j.run.status.terminal = true → j'.run.status = j.run.status
  log : j.run.status = .cancelled →
    ∃ later, j'.log = j.log ++ later ∧ ∀ id ∈ later, id ∈ j.inFlight

section Ended

variable {db db' : Db} {now : Int} {j j' j'' : Job} {e : RunEvent} {w w' : World}
  {es : List Event} {r : Nat}

theorem StaysEnded.refl (j : Job) : StaysEnded j j :=
  ⟨fun _ ↦ rfl, fun _ ↦ ⟨[], (List.append_nil _).symm, nofun⟩⟩

private theorem StaysEnded.of_quiet (h : StaysEnded j' j'') (hstatus : j'.run.status = j.run.status)
    (hlog : j'.log = j.log) (hflight : ∀ id ∈ j'.inFlight, id ∈ j.inFlight) :
    StaysEnded j j'' := by
  constructor
  · intro ht
    rw [h.status (hstatus ▸ ht), hstatus]
  · intro hc
    obtain ⟨later, hl, hmem⟩ := h.log (hstatus.trans hc)
    exact ⟨later, hlog ▸ hl, fun id hid ↦ hflight id (hmem id hid)⟩

private theorem StaysEnded.of_not_terminal (h : j.run.status.terminal = false) :
    StaysEnded j j' := by
  constructor
  · intro ht
    exact absurd (h.symm.trans ht) (by decide)
  · intro hc
    rw [hc] at h
    cases h

private theorem InTime.not_terminal (h : InTime db j e) (hc : j.commits db e = true)
    (he : e ≠ .cancelCommit) : j.run.status.terminal = false := by
  rcases h hc with h | ⟨h, -⟩
  · exact h
  · exact absurd h he

private theorem StaysEnded.cons (h : JobStep db now j e db' j') (hok : InTime db j e)
    (hrest : StaysEnded j' j'') : StaysEnded j j'' := by
  cases h with
  | receiveStart hphase _ | receiveResume hphase _ =>
    exact hrest.of_quiet rfl rfl nofun
  | dropResume hphase _ | cancelRead _ _ | resumeRead _ _ =>
    exact hrest.of_quiet rfl rfl fun _ ↦ id
  | reject _ _ | readRun _ _ _ _ | readDecision _ _ _ _ | refuse _ _ _ _ | checkMembers _ _ _ _
  | stop _ _ _ | refresh _ _ _ _ | lastWave _ _ _ _ | nextWave _ _ _ _ | raise _ | crash =>
    exact hrest.of_quiet rfl rfl nofun
  | commitStart _ _ _ | commitRefused _ _ | openWave _ _ _ _ | openFails _ _ _ | commitFailed _ _
  | commitCompleted _ | resumeCommit _ =>
    exact .of_not_terminal (hok.not_terminal rfl nofun)
  | pause _ _ _ _ hblocks => exact .of_not_terminal (hok.not_terminal hblocks nofun)
  | cancelCommit =>
    rcases hok rfl with hstatus | ⟨-, hstatus⟩
    · exact .of_not_terminal hstatus
    · exact hrest.of_quiet hstatus.symm rfl fun _ ↦ id
  | dispatch memberId facts plan i pending hphase hmem =>
    constructor
    · exact hrest.status
    · intro hc
      obtain ⟨later, hl, hsub⟩ := hrest.log hc
      refine ⟨memberId :: later, by rw [hl, List.append_assoc, List.singleton_append], ?_⟩
      have hflight : j.inFlight = pending := by rw [Job.inFlight, hphase]
      rw [hflight]
      intro id hid
      rcases List.mem_cons.mp hid with rfl | hid
      · exact hmem
      · exact List.mem_of_mem_erase (hsub id hid)

end Ended

def startedWorld : World :=
  (exec step (.initial twoSites 0) (aliceStarts none)).getD (.initial twoSites 0)

def cancelledEarly : List Event :=
  (executorStarts ++ [RunEvent.cancelRead alice, .cancelCommit, .refresh]).map (.run 0)

def cancelledInWave : List Event :=
  (executorStarts ++ [RunEvent.refresh, .openWave, .cancelRead alice, .cancelCommit]).map (.run 0)

/-- A step of the executor by itself, and none that raises. -/
def RunEvent.ofExecutor : RunEvent → Bool
  | .readRun | .readDecision | .checkMembers | .commitStart | .commitRefused | .refresh | .openWave
  | .dispatch _ _ | .gate | .commitFailed _ | .commitCompleted => true
  | .receiveStart | .receiveResume | .raise | .crash | .cancelRead _ | .cancelCommit
  | .resumeRead _ | .resumeCommit => false

def resumedBy (u : User) : List RunEvent := [.resumeRead u, .resumeCommit, .receiveResume]

/-- The wave at the stored index has been dispatched, and the run is paused at a later wave or
complete. -/
structure Progressed (db : Db) (j j' : Job) : Prop where
  wave : ∀ d ∈ j.decision db,
    ∀ id ∈ (planWaves db j.run.waveBy d.resolvedMemberIds).wave j.run.currentWaveIndex,
      id ∈ j'.log.drop j.log.length
  status : j'.run.status = .completed ∨
    j'.run.status = .pausedGate ∧ j.run.currentWaveIndex < j'.run.currentWaveIndex

/-- Resuming makes progress: wherever the task ends, alone, the run has progressed. -/
def ResumeProgresses (w : World) (r : Nat) (u : User) : Prop :=
  ∀ es w' j j', (∀ e ∈ es, e.ofExecutor = true) →
    Run step Free w ((resumedBy u ++ es).map (.run r)) w' → w.jobs[r]? = some j →
    w'.jobs[r]? = some j' → j'.phase = .idle → Progressed w.db j j'

def AcceptsResume (w : World) (r : Nat) (u : User) : Prop :=
  (step w (.run r (.resumeRead u))).isSome = true

/-- The run is marked running and nothing else has happened to it. -/
def Job.strand (j : Job) : Job := { j with run := { j.run with status := .running } }

section Resume

variable {w : World} {r : Nat} {u : User} {j : Job}

private theorem step_run (hj : w.jobs[r]? = some j) {e : RunEvent} {j' : Job}
    (h : stepJob w.db w.now j e = some (w.db, j')) :
    step w (.run r e) = some { w with jobs := w.jobs.set r j' } := by
  unfold step
  dsimp only
  rw [hj]
  dsimp only
  rw [h]
  rfl

private theorem resumeRead_of_accepts (hj : w.jobs[r]? = some j) (h : AcceptsResume w r u) :
    step w (.run r (.resumeRead u)) =
      some { w with jobs := w.jobs.set r { j with resumes := j.resumes + 1 } } := by
  obtain ⟨w', hst⟩ := Option.isSome_iff_exists.mp h
  rw [hst]
  cases jobsStep_of_step hst with
  | run _ _ j₀ j' db hj₀ hstep =>
    cases hj.symm.trans hj₀
    cases hstep with
    | resumeRead _ hstatus => rfl
    | refuse _ _ he _ => exact absurd he (by simp)
  | create _ _ _ _ hnot _ _ _ => exact absurd rfl (hnot _ _)
  | other _ _ hnot _ => exact absurd rfl (hnot _ _)

theorem exists_run_stranded (hj : w.jobs[r]? = some j) (hidle : j.phase = .idle)
    (haccepts : AcceptsResume w r u) :
    ∃ w', Run step Free w ((resumedBy u).map (.run r)) w' ∧ w'.jobs[r]? = some j.strand := by
  have hlt : r < w.jobs.length := (List.getElem?_eq_some_iff.mp hj).1
  have hset : ∀ (jobs : List Job) x, jobs.length = w.jobs.length → (jobs.set r x)[r]? = some x := by
    intro jobs x hlen
    exact List.getElem?_set_self (hlen ▸ hlt)
  have hread := resumeRead_of_accepts hj haccepts
  let j₁ : Job := { j with resumes := j.resumes + 1 }
  let j₂ : Job := { j.strand with resumeMessages := j.resumeMessages + 1 }
  have hcommit : stepJob w.db w.now j₁ .resumeCommit = some (w.db, j₂) := by
    simp [stepJob, stepRequest, j₁, j₂, Job.strand]
  have hreceive : stepJob w.db w.now j₂ .receiveResume = some (w.db, j.strand) := by
    simp [stepJob, stepBefore, j₂, Job.strand, hidle]
  refine ⟨_, .cons trivial hread (.cons trivial (step_run (hset _ _ rfl) hcommit)
    (.single trivial (step_run (hset _ _ (by simp)) hreceive))), ?_⟩
  exact hset _ _ (by simp)

/-- A paused run that is resumed is never carried on: it is left running, without an executor. -/
theorem resume_never_progresses (hj : w.jobs[r]? = some j) (hidle : j.phase = .idle)
    (haccepts : AcceptsResume w r u) : ¬ ResumeProgresses w r u := by
  intro hprogress
  obtain ⟨w', hrun, hj'⟩ := exists_run_stranded hj hidle haccepts
  have hdone := hprogress [] w' j j.strand nofun (by rwa [List.append_nil]) hj hj' hidle
  rcases hdone.status with h | ⟨h, -⟩
  · exact absurd h (by simp [Job.strand])
  · exact absurd h (by simp [Job.strand])

end Resume

/-- A run of alice that waits at the gate after its first wave. -/
def pausedWorld : World :=
  (exec step startedWorld ((executorStarts ++ waveOf 1).map (.run 0))).getD startedWorld

theorem resume_never_progresses_twoSites : ¬ ResumeProgresses pausedWorld 0 alice :=
  resume_never_progresses rfl rfl rfl

/-- The second wave is not dispatched and the run stays running, with no executor and no message. -/
theorem resumed_run_is_stranded :
    ∃ w j, Run step Free pausedWorld ((resumedBy alice).map (.run 0)) w ∧
      w.jobs[0]? = some j ∧ j.run.status = .running ∧ j.phase = .idle ∧ j.startMessage = false ∧
      j.resumeMessages = 0 ∧ j.log = [1] ∧ ¬ ResumeProgresses pausedWorld 0 alice := by
  refine ⟨_, _, Run.free_iff_exec.mpr rfl, rfl, rfl, rfl, rfl, rfl, rfl, fun h ↦ ?_⟩
  have hdone := h [] _ _ _ nofun (Run.free_iff_exec.mpr rfl) rfl rfl rfl
  exact absurd hdone.status (by decide)

end BnkForge.Fleet
