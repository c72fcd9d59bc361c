import BnkForge.BareMetal.Orchestrator
import BnkForge.Lib.Assoc
import BnkForge.Lib.ExceptResult

/-!
# Selection, cancellation and exclusivity

An execution goes through the steps from its start on whatever their status is, and the calls commit
what they have decided on rows that may have changed since. What the deployments keep where neither
matters.
-/

namespace BnkForge.BareMetal

open Transition List

/-! ### What is asked of the deployments -/

def DeploymentStatus.isFinal : DeploymentStatus → Bool
  | .completed | .cancelled => true
  | _ => false

def Deployment.selectedStepNames (plans : TopologySteps) (d : Deployment) : List String :=
  match getStepsForTopology plans d.topology with
  | .ok stepDefs => determineSelectedSteps stepDefs d.selectedPhases d.selectedSteps
  | .error _ => []

def Deployment.Due (plans : TopologySteps) (d : Deployment) (resumed : Bool)
    (step : DeploymentStep) : Prop :=
  step.name ∈ d.selectedStepNames plans ∧ (resumed = true → step.status ≠ .completed)

instance (plans : TopologySteps) (d : Deployment) (resumed : Bool) (step : DeploymentStep) :
    Decidable (d.Due plans resumed step) :=
  inferInstanceAs (Decidable (_ ∧ (_ → _)))

def Deployment.Apart (d other : Deployment) : Prop := ∀ h ∈ d.hosts, h ∉ other.hosts

def Exclusive (s : Orchestrator) : Prop :=
  ∀ d ∈ s.deployments, ∀ other ∈ s.deployments, d.id ≠ other.id → d.status.isTerminal = false →
    other.status.isTerminal = false → d.Apart other

/-- A step that executes only what is due, moves no deployment that was cancelled or completed, and
leaves every host to one deployment. -/
structure Respects (plans : TopologySteps) (s : Orchestrator) (e : DeploymentEvent)
    (t : Orchestrator) : Prop where
  due : ∀ n id resumed k left, e = .take n →
    s.calls n = some (.running id resumed none (k :: left)) →
    ∀ d, s.find id = some d → ∀ step ∈ d.steps, step.stepIndex = k → d.Due plans resumed step
  final : ∀ id d, s.find id = some d → d.status.isFinal = true →
    ∃ d', t.find id = some d' ∧ d'.status = d.status
  exclusive : Exclusive t

/-! ### Where it holds -/

/-- The deployment is not moved away from cancelled or completed, and where it becomes active again its
hosts have no other active deployment. -/
def MayMove (s : Orchestrator) (id : Nat) (status : DeploymentStatus) : Prop :=
  ∀ d ∈ s.deployments, d.id = id → (d.status.isFinal = true → d.status = status) ∧
    (status.isTerminal = false → d.status.isTerminal = true → ∀ other ∈ s.deployments,
      other.id ≠ id → other.status.isTerminal = false → d.Apart other)

/-- Every step from where the execution starts is due, and there is no other execution of the deployment,
where one of the two follows a resume that named no step. -/
def Ready (plans : TopologySteps) (s : Orchestrator) (id : Nat) : Prop :=
  ∀ d ∈ s.find id, (∀ step ∈ d.remaining, d.Due plans d.resumed step) ∧
    ∀ m resumed current left, s.calls m = some (.running id resumed current left) →
      d.resumed = false ∧ resumed = false

def Unhindered (plans : TopologySteps) (s : Orchestrator) : DeploymentEvent → Prop
  | .commitCreate n _ => ∀ d, s.calls n = some (.creating d) → ∀ other ∈ s.deployments,
    other.status.isTerminal = false → d.Apart other
  | .commitCancel n => ∀ id, s.calls n = some (.cancelling id) → MayMove s id .cancelled
  | .commitResume n => ∀ id r, s.calls n = some (.resuming id r) → MayMove s id .pending
  | .commitStart n => ∀ id loaded, s.calls n = some (.starting id loaded) →
    loaded ≠ .inProgress → MayMove s id .inProgress
  | .load n => ∀ id, s.calls n = some (.started id) → Ready plans s id
  | .fail n _ => ∀ id resumed current left,
    s.calls n = some (.running id resumed current left) → MayMove s id .failed
  | .complete n => ∀ id resumed current left,
    s.calls n = some (.running id resumed current left) → MayMove s id .completed
  | _ => True

/-! ### What a write keeps -/

/-- A change of a row that keeps what the deployment is for and its plan; only step `k` may be
completed by it. -/
structure Rewrites (change : Deployment → Deployment) (k : Option Nat) : Prop where
  id : ∀ d, (change d).id = d.id
  hosts : ∀ d, (change d).hosts = d.hosts
  selected : ∀ plans d, (change d).selectedStepNames plans = d.selectedStepNames plans
  indexes : ∀ d, (change d).steps.map DeploymentStep.stepIndex = d.steps.map DeploymentStep.stepIndex
  steps : ∀ d, ∀ step' ∈ (change d).steps, ∃ step ∈ d.steps, step.stepIndex = step'.stepIndex ∧
    step.name = step'.name ∧
    (step'.status = .completed → step.status = .completed ∨ k = some step.stepIndex)

section

variable {s t : Orchestrator} {n id k : Nat} {d d' : Deployment} {plans : TopologySteps}
  {change : Deployment → Deployment}

theorem Deployment.apart_comm : d.Apart d' ↔ d'.Apart d :=
  ⟨fun h x hx hx' ↦ h x hx' hx, fun h x hx hx' ↦ h x hx' hx⟩

theorem Rewrites.of_steps_eq (hid : ∀ d, (change d).id = d.id)
    (hhosts : ∀ d, (change d).hosts = d.hosts)
    (hselected : ∀ plans d, (change d).selectedStepNames plans = d.selectedStepNames plans)
    (hsteps : ∀ d, (change d).steps = d.steps) : Rewrites change none where
  id := hid
  hosts := hhosts
  selected := hselected
  indexes d := by rw [hsteps]
  steps d step' hstep' := ⟨step', hsteps d ▸ hstep', rfl, rfl, Or.inl⟩

/-- A change of some steps that keeps their indexes and names, and completes none but step `k`. -/
theorem Rewrites.of_map {k : Option Nat} {f : DeploymentStep → DeploymentStep}
    (hid : ∀ d, (change d).id = d.id) (hhosts : ∀ d, (change d).hosts = d.hosts)
    (hselected : ∀ plans d, (change d).selectedStepNames plans = d.selectedStepNames plans)
    (hsteps : ∀ d, (change d).steps = d.steps.map f)
    (hf : ∀ step, (f step).stepIndex = step.stepIndex ∧ (f step).name = step.name ∧
      ((f step).status = .completed → step.status = .completed ∨ k = some step.stepIndex)) :
    Rewrites change k where
  id := hid
  hosts := hhosts
  selected := hselected
  indexes d := by
    rw [hsteps, map_map]
    exact map_congr_left fun step _ ↦ (hf step).1
  steps d step' hstep' := by
    rw [hsteps] at hstep'
    obtain ⟨step, hstep, rfl⟩ := mem_map.mp hstep'
    exact ⟨step, hstep, (hf step).1.symm, (hf step).2.1.symm, (hf step).2.2⟩

theorem rewrites_status (status : DeploymentStatus) :
    Rewrites (fun d ↦ { d with status := status }) none :=
  .of_steps_eq (fun _ ↦ rfl) (fun _ ↦ rfl) (fun _ _ ↦ rfl) fun _ ↦ rfl

theorem rewrites_resume (r : Resumption) : Rewrites (fun d ↦ d.resume r) none := by
  refine .of_map (fun _ ↦ rfl) (fun _ ↦ rfl) (fun _ _ ↦ rfl) (fun _ ↦ rfl) fun step ↦ ?_
  split
  · exact ⟨rfl, rfl, nofun⟩
  · exact ⟨rfl, rfl, Or.inl⟩

theorem rewrites_takeStep (k : Nat) : Rewrites (fun d ↦ d.takeStep k) none := by
  refine .of_map (fun _ ↦ rfl) (fun _ ↦ rfl) (fun _ _ ↦ rfl) (fun _ ↦ rfl) fun step ↦ ?_
  split
  · exact ⟨rfl, rfl, nofun⟩
  · exact ⟨rfl, rfl, Or.inl⟩

theorem rewrites_failStep (k : Nat) (message : String) :
    Rewrites (fun d ↦ d.failStep k message) none := by
  refine .of_map (fun _ ↦ rfl) (fun _ ↦ rfl) (fun _ _ ↦ rfl) (fun _ ↦ rfl) fun step ↦ ?_
  split
  · exact ⟨rfl, rfl, nofun⟩
  · exact ⟨rfl, rfl, Or.inl⟩

theorem rewrites_finishStep (k : Nat) (result : StepResult) :
    Rewrites (fun d ↦ d.finishStep k result) (some k) := by
  refine .of_map (fun _ ↦ rfl) (fun _ ↦ rfl) (fun _ _ ↦ rfl) (fun _ ↦ rfl) fun step ↦ ?_
  split
  · next h => split <;> exact ⟨rfl, rfl, fun _ ↦ Or.inr (congrArg some h.symm)⟩
  · exact ⟨rfl, rfl, Or.inl⟩

theorem find_update (hid : ∀ d, (change d).id = d.id) (other : Nat) :
    (s.update id change).find other =
      (s.find other).map fun d ↦ if d.id = id then change d else d := by
  refine Assoc.find?_map_of_eq (fun d ↦ ?_) s.deployments
  split
  · rw [hid]
  · rfl

theorem id_of_find (h : s.find id = some d) : d.id = id :=
  eq_of_beq (find?_some (p := fun d : Deployment ↦ d.id == id) h)

theorem mem_of_find (h : s.find id = some d) : d ∈ s.deployments := mem_of_find?_eq_some h

/-! ### The steps that are left -/

theorem remaining_sublist :
    d.remaining.Sublist (d.steps.insertionSort fun a b ↦ a.stepIndex ≤ b.stepIndex) := by
  unfold Deployment.remaining
  split <;> exact drop_sublist ..

theorem mem_steps_of_mem_remaining {step : DeploymentStep} (h : step ∈ d.remaining) :
    step ∈ d.steps :=
  (mem_insertionSort _).mp (remaining_sublist.subset h)

theorem nodup_remaining (h : (d.steps.map DeploymentStep.stepIndex).Nodup) :
    (d.remaining.map DeploymentStep.stepIndex).Nodup :=
  ((List.Perm.map _ (perm_insertionSort _ d.steps)).nodup_iff.mpr h).sublist
    (remaining_sublist.map _)

/-- What an execution under way can rely on: it takes no step twice, and what is left is due. -/
structure Going (plans : TopologySteps) (s : Orchestrator) (id : Nat) (resumed : Bool)
    (current : Option Nat) (left : List Nat) : Prop where
  nodup : (current.toList ++ left).Nodup
  due : ∃ d, s.find id = some d ∧
    ∀ step ∈ d.steps, step.stepIndex ∈ left → d.Due plans resumed step

theorem going_load (hd : s.find id = some d) (hnodup : (d.steps.map DeploymentStep.stepIndex).Nodup)
    (hready : ∀ step ∈ d.remaining, d.Due plans d.resumed step) :
    Going plans s id d.resumed none (d.remaining.map DeploymentStep.stepIndex) where
  nodup := nodup_remaining hnodup
  due := by
    refine ⟨d, hd, fun step hstep hleft ↦ ?_⟩
    obtain ⟨found, hfound, hindex⟩ := mem_map.mp hleft
    have heq : found = step :=
      inj_on_of_nodup_map hnodup (mem_steps_of_mem_remaining hfound) hstep hindex
    exact hready step (heq ▸ hfound)

theorem Going.update {resumed : Bool} {current j : Option Nat} {left : List Nat} {other : Nat}
    (h : Going plans s id resumed current left) (hchange : Rewrites change j)
    (hj : ∀ i ∈ j, other = id → resumed = true → i ∉ left) :
    Going plans (s.update other change) id resumed current left where
  nodup := h.nodup
  due := by
    obtain ⟨d, hd, hdue⟩ := h.due
    refine ⟨if d.id = other then change d else d, by rw [find_update hchange.id, hd]; rfl, ?_⟩
    split
    · next heq =>
      intro step' hstep' hleft
      obtain ⟨step, hstep, hindex, hname, hcompleted⟩ := hchange.steps d step' hstep'
      rw [← hindex] at hleft
      have ⟨hselected, hopen⟩ := hdue step hstep hleft
      refine ⟨?_, fun hresumed hstatus ↦ ?_⟩
      · rw [hchange.selected, ← hname]
        exact hselected
      · rcases hcompleted hstatus with hstatus | hstep
        · exact hopen hresumed hstatus
        · exact hj _ hstep (heq.symm.trans (id_of_find hd)) hresumed hleft
    · exact hdue

/-! ### What a step does -/

/-- What becomes of a call on the deployment that writes; `j` is the step that it completes. -/
inductive Follows (id : Nat) : Call → Option Call → Option Nat → Prop
  | ends {call : Call} : Follows id call none none
  | starts {loaded : DeploymentStatus} : Follows id (.starting id loaded) (some (.started id)) none
  | takes {resumed : Bool} {k : Nat} {left : List Nat} :
    Follows id (.running id resumed none (k :: left)) (some (.running id resumed (some k) left)) none
  | finishes {resumed : Bool} {k : Nat} {left : List Nat} :
    Follows id (.running id resumed (some k) left) (some (.running id resumed none left)) (some k)

def Moves (s : Orchestrator) (id : Nat) (change : Deployment → Deployment) : Prop :=
  (∀ d, (change d).status = d.status) ∨
    ∃ status, (∀ d, (change d).status = status) ∧ MayMove s id status

inductive Effect (plans : TopologySteps) (s : Orchestrator) :
    DeploymentEvent → Orchestrator → Prop
  | read {e : DeploymentEvent} {n : Nat} {call : Call} (hn : s.calls n = none)
    (hcreated : ∀ d, call = .creating d → (d.steps.map DeploymentStep.stepIndex).Nodup)
    (hcall : ∀ id resumed current left, call ≠ .running id resumed current left) :
    Effect plans s e (s.setCall n (some call))
  | create {n id : Nat} {d : Deployment} (hn : s.calls n = some (.creating d))
    (hfresh : s.find id = none)
    (hapart : ∀ other ∈ s.deployments, other.status.isTerminal = false → d.Apart other) :
    Effect plans s (.commitCreate n id)
      ({ s with deployments := s.deployments ++ [{ d with id := id }] }.setCall n none)
  | write {e : DeploymentEvent} {n id : Nat} {change : Deployment → Deployment} {j : Option Nat}
    {call : Call} {call' : Option Call} (hn : s.calls n = some call)
    (hfollows : Follows id call call' j) (hchange : Rewrites change j) (hmoves : Moves s id change) :
    Effect plans s e ((s.update id change).setCall n call')
  | load {n id : Nat} {d : Deployment} (hn : s.calls n = some (.started id))
    (hd : s.find id = some d) (hready : Ready plans s id) :
    Effect plans s (.load n)
      (s.setCall n (some (.running id d.resumed none (d.remaining.map DeploymentStep.stepIndex))))
  | stop {n : Nat} : Effect plans s (.stop n) (s.setCall n none)

theorem map_stepIndex_planSteps (stepDefs : List StepDefinition) (selected : List String) :
    (planSteps stepDefs selected).map DeploymentStep.stepIndex = List.range' 0 stepDefs.length := by
  rw [planSteps, map_map]
  exact zipIdx_map_snd 0 stepDefs

theorem nodup_of_created {inv : Inventory} {deployments : List Deployment} {req : DeploymentRequest}
    (h : createDeployment inv deployments req = .ok d) :
    (d.steps.map DeploymentStep.stepIndex).Nodup := by
  obtain ⟨⟨topology, stepDefs, release⟩, -, heq⟩ := ExceptResult.bind_eq_ok.mp h
  cases heq
  simp only [map_stepIndex_planSteps]
  exact nodup_range'

theorem start_eq_some {call : Call} (h : s.start n call = some t) :
    s.calls n = none ∧ t = s.setCall n (some call) := by
  unfold Orchestrator.start at h
  split at h
  · cases h
  · next hn =>
    cases h
    exact ⟨Option.not_isSome_iff_eq_none.mp hn, rfl⟩

theorem effect {inv : Inventory} {e : DeploymentEvent} (hok : Unhindered inv.plans s e)
    (hst : deploymentStep inv s e = some t) : Effect inv.plans s e t := by
  cases e with
  | readCreate n req =>
    obtain ⟨d, hd, hst⟩ := Option.bind_eq_some_iff.mp hst
    obtain ⟨hn, rfl⟩ := start_eq_some hst
    refine .read hn ?_ fun _ _ _ _ ↦ Call.noConfusion
    rintro _ ⟨⟩
    exact nodup_of_created (ExceptResult.eq_ok_of_toOption hd)
  | commitCreate n id =>
    simp only [deploymentStep] at hst
    split at hst
    · next d hn =>
      split at hst
      · cases hst
      · next hfresh =>
        cases hst
        exact .create hn (Option.not_isSome_iff_eq_none.mp hfresh) (hok d hn)
    · cases hst
  | readCancel n id =>
    obtain ⟨d, -, hst⟩ := Option.bind_eq_some_iff.mp hst
    obtain ⟨_, -, hst⟩ := Option.bind_eq_some_iff.mp hst
    obtain ⟨hn, rfl⟩ := start_eq_some hst
    exact .read hn (fun _ ↦ Call.noConfusion) fun _ _ _ _ ↦ Call.noConfusion
  | commitCancel n =>
    simp only [deploymentStep] at hst
    split at hst
    · next id hn =>
      cases hst
      exact .write hn .ends (rewrites_status _) (Or.inr ⟨_, fun _ ↦ rfl, hok id hn⟩)
    · cases hst
  | readResume n id fromStep =>
    obtain ⟨d, -, hst⟩ := Option.bind_eq_some_iff.mp hst
    obtain ⟨r, -, hst⟩ := Option.bind_eq_some_iff.mp hst
    obtain ⟨hn, rfl⟩ := start_eq_some hst
    exact .read hn (fun _ ↦ Call.noConfusion) fun _ _ _ _ ↦ Call.noConfusion
  | commitResume n =>
    simp only [deploymentStep] at hst
    split at hst
    · next id r hn =>
      cases hst
      exact .write hn .ends (rewrites_resume r) (Or.inr ⟨_, fun _ ↦ rfl, hok id r hn⟩)
    · cases hst
  | readExecute n id =>
    obtain ⟨d, -, hst⟩ := Option.bind_eq_some_iff.mp hst
    obtain ⟨hn, rfl⟩ := start_eq_some hst
    exact .read hn (fun _ ↦ Call.noConfusion) fun _ _ _ _ ↦ Call.noConfusion
  | commitStart n =>
    simp only [deploymentStep] at hst
    split at hst
    · next id loaded hn =>
      cases hst
      by_cases hloaded : loaded = .inProgress
      · simp only [if_pos hloaded]
        exact .write hn .starts (.of_steps_eq (fun _ ↦ rfl) (fun _ ↦ rfl) (fun _ _ ↦ rfl)
          fun _ ↦ rfl) (Or.inl fun _ ↦ rfl)
      · simp only [if_neg hloaded]
        exact .write hn .starts (rewrites_status _)
          (Or.inr ⟨_, fun _ ↦ rfl, hok id loaded hn hloaded⟩)
    · cases hst
  | load n =>
    simp only [deploymentStep] at hst
    split at hst
    · next id hn =>
      obtain ⟨d, hd, rfl⟩ := Option.map_eq_some_iff.mp hst
      exact .load hn hd (hok id hn)
    · cases hst
  | take n =>
    simp only [deploymentStep] at hst
    split at hst
    · next id resumed k left hn =>
      cases hst
      exact .write hn .takes (rewrites_takeStep k) (Or.inl fun _ ↦ rfl)
    · cases hst
  | finish n result =>
    simp only [deploymentStep] at hst
    split at hst
    · next id resumed k left hn =>
      cases hst
      exact .write hn .finishes (rewrites_finishStep k result) (Or.inl fun _ ↦ rfl)
    · cases hst
  | fail n message =>
    simp only [deploymentStep] at hst
    split at hst
    · next id resumed k left hn =>
      cases hst
      exact .write hn .ends (rewrites_failStep k message)
        (Or.inr ⟨_, fun _ ↦ rfl, hok id resumed (some k) left hn⟩)
    · cases hst
  | complete n =>
    simp only [deploymentStep] at hst
    split at hst
    · next id resumed hn =>
      cases hst
      exact .write hn .ends (rewrites_status _)
        (Or.inr ⟨_, fun _ ↦ rfl, hok id resumed none [] hn⟩)
    · cases hst
  | stop n =>
    cases hst
    exact .stop

/-! ### What every run keeps -/

/-- The invariant. Two executions of one deployment are there only where neither has to leave out
completed steps. -/
structure Sane (plans : TopologySteps) (s : Orchestrator) : Prop where
  indexes : ∀ d ∈ s.deployments, (d.steps.map DeploymentStep.stepIndex).Nodup
  created : ∀ n d, s.calls n = some (.creating d) →
    (d.steps.map DeploymentStep.stepIndex).Nodup
  going : ∀ n id resumed current left, s.calls n = some (.running id resumed current left) →
    Going plans s id resumed current left
  alone : ∀ n m id resumed current left resumed' current' left', n ≠ m →
    s.calls n = some (.running id resumed current left) →
    s.calls m = some (.running id resumed' current' left') → resumed = false ∧ resumed' = false
  exclusive : Exclusive s

theorem sane_init (plans : TopologySteps) : Sane plans Orchestrator.init where
  indexes _ h := absurd h not_mem_nil
  created _ _ h := by cases h
  going _ _ _ _ _ h := by cases h
  alone _ _ _ _ _ _ _ _ _ _ h := by cases h
  exclusive _ h := absurd h not_mem_nil

theorem going_setCall {call : Option Call} {resumed : Bool} {current : Option Nat} {left : List Nat} :
    Going plans (s.setCall n call) id resumed current left ↔ Going plans s id resumed current left :=
  ⟨fun h ↦ ⟨h.nodup, h.due⟩, fun h ↦ ⟨h.nodup, h.due⟩⟩

theorem mem_update {other : Deployment} (h : other ∈ (s.update id change).deployments) :
    ∃ d ∈ s.deployments, other = if d.id = id then change d else d := by
  obtain ⟨d, hd, rfl⟩ := mem_map.mp h
  exact ⟨d, hd, rfl⟩

theorem Sane.setCall (hs : Sane plans s) {call : Option Call}
    (hcreated : ∀ d, call = some (.creating d) → (d.steps.map DeploymentStep.stepIndex).Nodup)
    (hgoing : ∀ id resumed current left, call = some (.running id resumed current left) →
      Going plans s id resumed current left ∧
      ∀ m resumed' current' left', m ≠ n → s.calls m = some (.running id resumed' current' left') →
        resumed = false ∧ resumed' = false) :
    Sane plans (s.setCall n call) where
  indexes := hs.indexes
  created m d hm := by
    simp only [Orchestrator.setCall] at hm
    rcases eq_or_ne m n with rfl | hne
    · rw [Function.update_self] at hm
      exact hcreated d hm
    · rw [Function.update_of_ne hne] at hm
      exact hs.created m d hm
  going m id resumed current left hm := by
    simp only [Orchestrator.setCall] at hm
    rcases eq_or_ne m n with rfl | hne
    · rw [Function.update_self] at hm
      exact going_setCall.mpr (hgoing id resumed current left hm).1
    · rw [Function.update_of_ne hne] at hm
      exact going_setCall.mpr (hs.going m id resumed current left hm)
  alone m m' id resumed current left resumed' current' left' hne hm hm' := by
    simp only [Orchestrator.setCall] at hm hm'
    by_cases hmn : m = n
    · subst hmn
      rw [Function.update_self] at hm
      rw [Function.update_of_ne hne.symm] at hm'
      exact (hgoing id resumed current left hm).2 m' resumed' current' left' hne.symm hm'
    · rw [Function.update_of_ne hmn] at hm
      by_cases hmn' : m' = n
      · subst hmn'
        rw [Function.update_self] at hm'
        exact ((hgoing id resumed' current' left' hm').2 m resumed current left hmn hm).symm
      · rw [Function.update_of_ne hmn'] at hm'
        exact hs.alone m m' id resumed current left resumed' current' left' hne hm hm'
  exclusive := hs.exclusive

theorem MayMove.apart {status : DeploymentStatus} {other : Deployment} (h : MayMove s id status)
    (hs : Exclusive s) (hd : d ∈ s.deployments) (hid : d.id = id) (hother : other ∈ s.deployments)
    (hne : other.id ≠ id) (hstatus : status.isTerminal = false)
    (hlive : other.status.isTerminal = false) : d.Apart other := by
  cases hterminal : d.status.isTerminal with
  | false => exact hs d hd other hother (hid ▸ hne.symm) hterminal hlive
  | true => exact (h d hd hid).2 hstatus hterminal other hother hne hlive

theorem Exclusive.update {j : Option Nat} (hs : Exclusive s) (hchange : Rewrites change j)
    (hmoves : Moves s id change) : Exclusive (s.update id change) := by
  -- A row that is active after the write is apart from another row that was active before.
  have hapart : ∀ d ∈ s.deployments, ∀ other ∈ s.deployments, d.id = id → other.id ≠ id →
      (change d).status.isTerminal = false → other.status.isTerminal = false →
      (change d).Apart other := by
    intro d hd other hother hid hne hlive hlive'
    rw [Deployment.Apart, hchange.hosts]
    rcases hmoves with hsame | ⟨status, hstatus, hmay⟩
    · rw [hsame] at hlive
      exact hs d hd other hother (hid ▸ hne.symm) hlive hlive'
    · rw [hstatus] at hlive
      exact hmay.apart hs hd hid hother hne hlive hlive'
  intro d' hd' other' hother' hne hlive hlive'
  obtain ⟨d, hd, rfl⟩ := mem_update hd'
  obtain ⟨other, hother, rfl⟩ := mem_update hother'
  by_cases hid : d.id = id <;> by_cases hid' : other.id = id <;>
    simp only [hid, hid', if_true, if_false] at hne hlive hlive' ⊢
  · rw [hchange.id, hchange.id, hid, hid'] at hne
    exact absurd rfl hne
  · exact hapart d hd other hother hid hid' hlive hlive'
  · exact Deployment.apart_comm.mp (hapart other hother d hd hid' hid hlive' hlive)
  · exact hs d hd other hother hne hlive hlive'

theorem Sane.update {j : Option Nat} (hs : Sane plans s) (hchange : Rewrites change j)
    (hmoves : Moves s id change)
    (hj : ∀ i ∈ j, ∀ m resumed current left,
      s.calls m = some (.running id resumed current left) → resumed = true → i ∉ left) :
    Sane plans (s.update id change) where
  indexes d' hd' := by
    obtain ⟨d, hd, rfl⟩ := mem_update hd'
    split
    · rw [hchange.indexes]
      exact hs.indexes d hd
    · exact hs.indexes d hd
  created := hs.created
  going m other resumed current left hm :=
    (hs.going m other resumed current left hm).update hchange fun i hi heq hresumed ↦ by
      subst heq
      exact hj i hi m resumed current left hm hresumed
  alone := hs.alone
  exclusive := hs.exclusive.update hchange hmoves

theorem find_insert (h : s.find id = some d) :
    Orchestrator.find { s with deployments := s.deployments ++ [d'] } id = some d := by
  rw [Orchestrator.find, find?_append]
  exact Option.or_of_isSome (Option.isSome_of_mem h) ▸ h

theorem Sane.insert (hs : Sane plans s) (hnodup : (d.steps.map DeploymentStep.stepIndex).Nodup)
    (hapart : ∀ other ∈ s.deployments, other.status.isTerminal = false → d.Apart other) :
    Sane plans { s with deployments := s.deployments ++ [{ d with id := id }] } where
  indexes other hother := by
    rcases mem_append.mp hother with hother | hother
    · exact hs.indexes other hother
    · cases mem_singleton.mp hother
      exact hnodup
  created := hs.created
  going n other resumed current left hn := by
    have h := hs.going n other resumed current left hn
    obtain ⟨found, hfound, hdue⟩ := h.due
    exact ⟨h.nodup, found, find_insert hfound, hdue⟩
  alone := hs.alone
  exclusive := by
    intro other hother other' hother' hne hlive hlive'
    rcases mem_append.mp hother with hother | hother <;>
      rcases mem_append.mp hother' with hother' | hother'
    · exact hs.exclusive other hother other' hother' hne hlive hlive'
    · cases mem_singleton.mp hother'
      exact Deployment.apart_comm.mp (hapart other hother hlive)
    · cases mem_singleton.mp hother
      exact hapart other' hother' hlive'
    · cases mem_singleton.mp hother
      cases mem_singleton.mp hother'
      exact absurd rfl hne

theorem Going.mono {resumed : Bool} {current current' : Option Nat} {left left' : List Nat}
    (h : Going plans s id resumed current left)
    (hsub : (current'.toList ++ left').Sublist (current.toList ++ left)) (hleft : left' ⊆ left) :
    Going plans s id resumed current' left' where
  nodup := h.nodup.sublist hsub
  due := by
    obtain ⟨d, hd, hdue⟩ := h.due
    exact ⟨d, hd, fun step hstep hmem ↦ hdue step hstep (hleft hmem)⟩

theorem Effect.sane {e : DeploymentEvent} (h : Effect plans s e t) (hs : Sane plans s) :
    Sane plans t := by
  cases h with
  | read hn hcreated hcall =>
    refine hs.setCall (fun d heq ↦ hcreated d (Option.some.inj heq)) ?_
    exact fun id resumed current left heq ↦ absurd (Option.some.inj heq) (hcall id resumed current left)
  | create hn hfresh hapart =>
    exact (hs.insert (hs.created _ _ hn) hapart).setCall (by rintro _ ⟨⟩) (by rintro _ _ _ _ ⟨⟩)
  | @write _ n id change j call call' hn hfollows hchange hmoves =>
    have hwritten : Sane plans (s.update id change) := by
      refine hs.update hchange hmoves fun i hi m resumed current left hm hresumed ↦ ?_
      cases hfollows with
      | ends | starts | takes => cases hi
      | @finishes resumed' k left' =>
        cases hi
        by_cases hmn : m = n
        · subst hmn
          cases hn.symm.trans hm
          exact (nodup_cons.mp (hs.going m id resumed (some i) left hm).nodup).1
        · have halone := hs.alone m n id resumed current left resumed' (some i) left' hmn hm hn
          rw [halone.1] at hresumed
          cases hresumed
    refine hwritten.setCall ?_ ?_
    · cases hfollows <;> rintro d ⟨⟩
    · intro id' resumed current left heq
      have hother : ∀ {current₀ left₀}, call = .running id resumed current₀ left₀ →
          ∀ m resumed' current' left', m ≠ n →
            s.calls m = some (.running id resumed' current' left') →
            resumed = false ∧ resumed' = false := by
        rintro current₀ left₀ rfl m resumed' current' left' hmn hm
        exact (hs.alone m n id resumed' current' left' resumed current₀ left₀ hmn hm hn).symm
      cases hfollows with
      | ends | starts => cases heq
      | takes =>
        cases heq
        exact ⟨(hwritten.going n id resumed none _ hn).mono (List.Sublist.refl _)
          (subset_cons_self ..), hother rfl⟩
      | finishes =>
        cases heq
        exact ⟨(hwritten.going n id resumed (some _) left hn).mono (sublist_cons_self ..)
          (List.Subset.refl _), hother rfl⟩
  | load hn hd hready =>
    refine hs.setCall (by rintro _ ⟨⟩) fun id resumed current left heq ↦ ?_
    cases heq
    have ⟨hdue, halone⟩ := hready _ hd
    exact ⟨going_load hd (hs.indexes _ (mem_of_find hd)) hdue,
      fun m resumed' current' left' _ hm ↦ halone m resumed' current' left' hm⟩
  | stop => exact hs.setCall (by rintro _ ⟨⟩) (by rintro _ _ _ _ ⟨⟩)

/-! ### Whole runs -/

theorem Effect.final {e : DeploymentEvent} (h : Effect plans s e t) (hd : s.find id = some d)
    (hfinal : d.status.isFinal = true) : ∃ d', t.find id = some d' ∧ d'.status = d.status := by
  cases h with
  | read _ _ _ | load _ _ _ | stop => exact ⟨d, hd, rfl⟩
  | create _ _ _ => exact ⟨d, find_insert hd, rfl⟩
  | @write _ _ other change _ _ _ _ _ hchange hmoves =>
    refine ⟨if d.id = other then change d else d, (find_update hchange.id id).trans (by rw [hd]; rfl),
      ?_⟩
    split
    · next heq =>
      rcases hmoves with hsame | ⟨status, hstatus, hmay⟩
      · exact hsame d
      · rw [hstatus]
        exact ((hmay d (mem_of_find hd) heq).1 hfinal).symm
    · rfl

theorem respects {inv : Inventory} {e : DeploymentEvent} (hs : Sane inv.plans s)
    (hok : Unhindered inv.plans s e) (hst : deploymentStep inv s e = some t) :
    Sane inv.plans t ∧ Respects inv.plans s e t := by
  have heffect := effect hok hst
  have ht := heffect.sane hs
  refine ⟨ht, ?_, fun id d hd hfinal ↦ heffect.final hd hfinal, ht.exclusive⟩
  rintro n id resumed k left - hn d hd step hstep hk
  obtain ⟨found, hfound, hdue⟩ := (hs.going n id resumed none (k :: left) hn).due
  cases hd.symm.trans hfound
  exact hdue step hstep (hk ▸ mem_cons_self)

end

/-- Two hosts of a project, the topologies that there are, and one release. -/
def lab : Inventory where
  plans := topologySteps
  hosts := [⟨1, 1, some "regular", none, none⟩, ⟨2, 1, some "regular", none, none⟩]
  releases := [⟨1, "bnk-2.2", true, true⟩]

/-- A deployment is created, and its execution takes its first step. -/
def taken (req : DeploymentRequest) : List DeploymentEvent :=
  [.readCreate 0 req, .commitCreate 0 7, .readExecute 1 7, .commitStart 1, .load 1] ++ [.take 1]

def lastStep : DeploymentRequest := { hostId := 1, projectId := 1, resumeFromStep := some 18 }

end BnkForge.BareMetal
