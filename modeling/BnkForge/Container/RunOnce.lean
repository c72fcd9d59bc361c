import BnkForge.Container.Phase
import BnkForge.Lib.Transition
import Mathlib.Data.List.Nodup

/-!
# Steps that run once

The markers of `run_once` steps across operations. A marker is a file in the workspace of a module,
named by the name of the step, and modules of a deployment may share a workspace
(`backend/services/workspace_manager.py:106–142`). A step is passed over only after it completed, as
long as the `run_once` steps of a workspace leave different markers (`skips_justified`).
-/

namespace BnkForge.Container

open Python List

/-! ### Workspaces -/

structure ArtifactModule where
  id : Nat
  projectId : Nat
  pathInProject : String
  deriving DecidableEq, Repr

/-- `_deployment_group`. -/
def deploymentGroup (m : ArtifactModule) : Option String :=
  match m.pathInProject.toList.splitOn '/' with
  | root :: release :: _ =>
    if root = "imported-blueprint".toList ∧ release ≠ [] then
      some ("bp-" ++ String.ofList release)
    else none
  | _ => none

/-- `artifact_workspace_key`. -/
def artifactWorkspaceKey (m : ArtifactModule) (scope : Value) : String :=
  match scope with
  | .str text =>
    if text = "deployment" then (deploymentGroup m).getD (toString m.id)
    else toString m.id
  | _ => toString m.id

abbrev Workspace := Nat × String

/-! ### Operations one after another -/

structure Execution where
  owner : ArtifactModule
  manifest : Value
  vars : List (String × Value)
  credentialsEnv : List (String × String)
  op : Operation
  config : EngineConfig
  around : Surroundings

structure Completion where
  workspace : Workspace
  moduleId : Nat
  phase : String
  index : Nat
  step : Value

structure Workspaces where
  files : Workspace → List String
  completed : List Completion

/-- What happens to the workspaces. -/
inductive WorkspaceEvent
  | execute (e : Execution)
  /-- A file comes from elsewhere, as from the program of a step. -/
  | write (workspace : Workspace) (name : String)
  | remove (workspace : Workspace) (name : String)

namespace Execution

def workspace (e : Execution) : Workspace :=
  (e.owner.projectId, artifactWorkspaceKey e.owner ((e.manifest.get "state").get "scope"))

def context (e : Execution) : ModuleContext :=
  ⟨e.owner.id, e.owner.projectId, e.vars, e.credentialsEnv, e.manifest⟩

/-- A step of the operation as one that succeeded. -/
def record (e : Execution) (p : Nat × Value) : Completion :=
  ⟨e.workspace, e.owner.id, e.op.phase, p.1, p.2⟩

variable (repr : Value → String)

def phaseState (e : Execution) (s : Workspaces) : PhaseState :=
  (runOperation repr e.config { e.around with markers := s.files e.workspace } e.context e.op).1

def completions (e : Execution) (s : Workspaces) : List Completion :=
  ((stepsOf e.manifest e.op).filter fun p ↦
    (e.phaseState repr s).events.contains (.completed p.1)).map e.record

end Execution

def Workspaces.initial : Workspaces := ⟨fun _ ↦ [], []⟩

variable (repr : Value → String)

def Workspaces.step (s : Workspaces) : WorkspaceEvent → Option Workspaces
  | .execute e => some {
      files := Function.update s.files e.workspace (e.phaseState repr s).markers
      completed := s.completed ++ e.completions repr s }
  | .write workspace name => some { s with
      files := Function.update s.files workspace (s.files workspace ++ [name]) }
  | .remove workspace name => some { s with
      files := Function.update s.files workspace ((s.files workspace).filter (· != name)) }

/-- A `run_once` step that its marker lets be passed over has succeeded before, for the same module
and phase and in the same workspace. -/
def SkipsJustified (s : Workspaces) : WorkspaceEvent → Workspaces → Prop
  | .execute e, _ => ∀ p ∈ stepsOf e.manifest e.op,
      .skippedOnce p.1 ∈ (e.phaseState repr s).events → e.record p ∈ s.completed
  | _, _ => True

/-- A `run_once` step of a phase whose gate is open. -/
def OnceStep (vars : List (String × Value)) (p : Nat × Value) : Prop :=
  stepEnabled repr vars p.2 = .ok true ∧ runsOnce p.2 = true

/-- The `run_once` steps of an operation leave different markers, and a marker of theirs that is in
the workspace is not that of another step which succeeded there; nothing but the engine writes a
marker. -/
def MarkersDistinct (s : Workspaces) : WorkspaceEvent → Prop
  | .execute e => ∀ p ∈ stepsOf e.manifest e.op, OnceStep repr (contextOf e.context e.op).vars p →
      (∀ q ∈ stepsOf e.manifest e.op, OnceStep repr (contextOf e.context e.op).vars q →
        markerOf repr q = markerOf repr p → q = p) ∧
      (markerOf repr p ∈ s.files e.workspace → ∀ c ∈ s.completed, c.workspace = e.workspace →
        runsOnce c.step = true → markerOf repr (c.index, c.step) = markerOf repr p → c = e.record p)
  | .write _ name => ∀ stepName, name ≠ markerName stepName
  | .remove _ _ => True

/-! ### One phase -/

section

/-- What a phase does with markers: it leaves those of its `run_once` steps that succeeded, and
passes over a `run_once` step whose marker was there or was left by another step. -/
structure PhaseMarkers (vars : List (String × Value)) (before : List String)
    (steps : List (Nat × Value)) (s : PhaseState) : Prop where
  left : ∀ marker ∈ s.markers, marker ∈ before ∨ ∃ p ∈ steps, OnceStep repr vars p ∧
    markerOf repr p = marker ∧ .completed p.1 ∈ s.events
  skips : ∀ index, .skippedOnce index ∈ s.events → ∃ p ∈ steps, p.1 = index ∧ OnceStep repr vars p ∧
    (markerOf repr p ∈ before ∨ ∃ q ∈ steps, q ≠ p ∧ OnceStep repr vars q ∧
      markerOf repr q = markerOf repr p)

variable {repr} {config : EngineConfig} {around : Surroundings} {ctx : ModuleContext}
variable {shared : Shared} {steps : List (Nat × Value)} {p : Nat × Value} {s s' : PhaseState}

theorem StepRun.stopped {outcome : Outcome} (h : StepRun repr config around ctx shared p s s' outcome)
    (hne : outcome ≠ .next) : s'.markers = s.markers ∧ s'.events = s.events := by
  cases h with
  | overflow _ _ _ hattempted => exact ⟨hattempted.markers, hattempted.events⟩
  | failed _ _ _ hattempted => exact ⟨hattempted.markers, hattempted.events⟩
  | gated => exact absurd rfl hne
  | skippedOnce => exact absurd rfl hne
  | completed => exact absurd rfl hne
  | _ => exact ⟨rfl, rfl⟩

theorem PhaseMarkers.mono {vars : List (String × Value)} {before : List String}
    {steps' : List (Nat × Value)} (hsub : steps ⊆ steps') (h : PhaseMarkers repr vars before steps s) :
    PhaseMarkers repr vars before steps' s := by
  constructor
  · intro marker hmarker
    refine (h.left marker hmarker).imp_right ?_
    rintro ⟨p, hp, hrest⟩
    exact ⟨p, hsub hp, hrest⟩
  · intro index hindex
    obtain ⟨p, hp, heq, honce, hmarker⟩ := h.skips index hindex
    refine ⟨p, hsub hp, heq, honce, hmarker.imp_right ?_⟩
    rintro ⟨q, hq, hrest⟩
    exact ⟨q, hsub hq, hrest⟩

theorem PhaseMarkers.of_eq {vars : List (String × Value)} {before : List String}
    (h : PhaseMarkers repr vars before steps s) (hmarkers : s'.markers = s.markers)
    (hevents : s'.events = s.events) : PhaseMarkers repr vars before steps s' := by
  constructor
  · rw [hmarkers, hevents]
    exact h.left
  · rw [hevents]
    exact h.skips

theorem PhaseMarkers.quiet {vars : List (String × Value)} {before : List String} {event : StepEvent}
    (h : PhaseMarkers repr vars before steps s) (hmarkers : s'.markers = s.markers)
    (hevents : s'.events = s.events ++ [event])
    (hevent : ∀ index, event = .skippedOnce index → ∃ p ∈ steps, p.1 = index ∧ OnceStep repr vars p ∧
      (markerOf repr p ∈ before ∨ ∃ q ∈ steps, q ≠ p ∧ OnceStep repr vars q ∧
        markerOf repr q = markerOf repr p)) : PhaseMarkers repr vars before steps s' := by
  constructor
  · intro marker hmarker
    rw [hmarkers] at hmarker
    refine (h.left marker hmarker).imp_right ?_
    rintro ⟨p, hp, honce, heq, hcompleted⟩
    exact ⟨p, hp, honce, heq, by rw [hevents]; exact mem_append_left _ hcompleted⟩
  · intro index hindex
    rw [hevents] at hindex
    obtain hold | hnew := mem_append.mp hindex
    · exact h.skips index hold
    · exact hevent index (mem_singleton.mp hnew).symm

theorem PhaseMarkers.completed {vars : List (String × Value)} {before : List String}
    (h : PhaseMarkers repr vars before steps s) (hp : p ∈ steps)
    (henabled : stepEnabled repr vars p.2 = .ok true) :
    PhaseMarkers repr vars before steps (completedState repr around p s) := by
  have hold : ∀ marker ∈ s.markers, marker ∈ before ∨ ∃ q ∈ steps, OnceStep repr vars q ∧
      markerOf repr q = marker ∧ .completed q.1 ∈ s.events ++ [.completed p.1] := by
    intro marker hmarker
    refine (h.left marker hmarker).imp_right ?_
    rintro ⟨q, hq, honce, heq, hcompleted⟩
    exact ⟨q, hq, honce, heq, mem_append_left _ hcompleted⟩
  constructor
  · intro marker hmarker
    simp only [completedState] at hmarker ⊢
    split at hmarker
    · next hwrite =>
      obtain hmarker | hnew := mem_append.mp hmarker
      · exact hold marker hmarker
      · right
        rw [Bool.and_eq_true] at hwrite
        exact ⟨p, hp, ⟨henabled, hwrite.1⟩, (mem_singleton.mp hnew).symm,
          mem_append_right _ (mem_singleton_self _)⟩
    · exact hold marker hmarker
  · intro index hindex
    obtain hold | hnew := mem_append.mp hindex
    · exact h.skips index hold
    · cases mem_singleton.mp hnew

theorem PhaseMarkers.step {before : List String} {done after : List (Nat × Value)}
    (hsteps : steps = done ++ p :: after) (hnodup : (steps.map Prod.fst).Nodup)
    (h : PhaseMarkers repr ctx.vars before done s)
    (hrun : StepRun repr config around ctx shared p s s' .next) :
    PhaseMarkers repr ctx.vars before (done ++ [p]) s' := by
  have hmono := h.mono (subset_append_left done [p])
  have hp : p ∈ done ++ [p] := mem_append_right _ (mem_singleton_self _)
  cases hrun with
  | gated => exact hmono.quiet rfl rfl nofun
  | skippedOnce henabled hskip =>
    refine hmono.quiet rfl rfl fun index hindex ↦ ?_
    cases hindex
    refine ⟨p, hp, rfl, ⟨henabled, hskip.1⟩, (h.left _ hskip.2).imp_right ?_⟩
    rintro ⟨q, hq, honce, hmarker, -⟩
    refine ⟨q, mem_append_left _ hq, ?_, honce, hmarker⟩
    -- The steps of a phase have different indexes.
    rintro rfl
    rw [hsteps, map_append, map_cons] at hnodup
    exact (nodup_append.mp hnodup).2.2 q.1 (mem_map_of_mem hq) q.1 mem_cons_self rfl
  | completed henabled _ _ hattempted =>
    have hattempts : PhaseMarkers repr ctx.vars before (done ++ [p]) _ :=
      hmono.of_eq hattempted.markers hattempted.events
    exact hattempts.completed hp henabled

variable (repr config around ctx shared) in
theorem phaseMarkers_runSteps (hnodup : (steps.map Prod.fst).Nodup) (markers : List String) :
    PhaseMarkers repr ctx.vars markers steps
      (runSteps repr config around ctx shared steps { markers := markers }).1 := by
  rcases hrun : runSteps repr config around ctx shared steps { markers := markers } with ⟨s', outcome⟩
  have hinitial : PhaseMarkers repr ctx.vars markers [] { markers := markers } :=
    ⟨fun _ hmarker ↦ .inl hmarker, fun _ hindex ↦ nomatch hindex⟩
  have hrule := runSteps_rule (motive := fun done s ↦ PhaseMarkers repr ctx.vars markers done s)
    (fun done p after s s' hsteps hdone hstep ↦ hdone.step hsteps hnodup hstep) hinitial hrun
  obtain ⟨-, hall⟩ | ⟨before, p, after, s₁, hsteps, hbefore, hne, hstep⟩ := hrule
  · exact hall
  · obtain ⟨hmarkers, hevents⟩ := hstep.stopped hne
    refine (hbefore.of_eq hmarkers hevents).mono ?_
    rw [hsteps]
    exact subset_append_left _ _

theorem nodup_indexed (xs : List Value) : ((indexed xs).map Prod.fst).Nodup := by
  have hfst : (indexed xs).map Prod.fst = xs.zipIdx.map Prod.snd := by
    rw [indexed, map_map]
    rfl
  rw [hfst, zipIdx_map_snd]
  exact nodup_range'

variable (config around) in
theorem phaseMarkers_runOperation (ctx : ModuleContext) (op : Operation) :
    PhaseMarkers repr (contextOf ctx op).vars around.markers (stepsOf ctx.packManifest op)
      (runOperation repr config around ctx op).1 := by
  have hnone : PhaseMarkers repr (contextOf ctx op).vars around.markers (stepsOf ctx.packManifest op)
      { markers := around.markers } :=
    ⟨fun _ hmarker ↦ .inl hmarker, fun _ hindex ↦ nomatch hindex⟩
  unfold runOperation
  split
  · next step rest hlist =>
    have hsteps : stepsOf ctx.packManifest op = indexed (step :: rest) := by
      rw [stepsOf, hlist]
      rfl
    unfold runPhase
    split
    · exact hnone
    · next shared hshared =>
      have hrun := phaseMarkers_runSteps repr config around (contextOf ctx op) shared
        (nodup_indexed (step :: rest)) around.markers
      rw [hsteps]
      split
      all_goals
        next heq =>
          rw [heq] at hrun
          exact hrun
  · exact hnone
  · exact hnone
  · split
    · exact hnone
    · exact hnone

end

/-! ### Runs of the system -/

section

variable {repr}

/-- Each marker in a workspace was left by a `run_once` step that succeeded there. -/
def MarkersEarned (repr : Value → String) (s : Workspaces) : Prop :=
  ∀ workspace name, markerName name ∈ s.files workspace → ∃ c ∈ s.completed,
    c.workspace = workspace ∧ runsOnce c.step = true ∧
      markerOf repr (c.index, c.step) = markerName name

theorem eq_of_mem_stepsOf {manifest : Value} {op : Operation} {p q : Nat × Value}
    (hp : p ∈ stepsOf manifest op) (hq : q ∈ stepsOf manifest op) (h : p.1 = q.1) : p = q := by
  have hnodup := nodup_indexed (elements (stepSetOf manifest op))
  exact inj_on_of_nodup_map hnodup hp hq h

variable {s : Workspaces} {e : Execution}

theorem Execution.phaseMarkers (e : Execution) (s : Workspaces) :
    PhaseMarkers repr (contextOf e.context e.op).vars (s.files e.workspace)
      (stepsOf e.manifest e.op) (e.phaseState repr s) :=
  phaseMarkers_runOperation e.config { e.around with markers := s.files e.workspace } e.context e.op

theorem Execution.mem_completions {p : Nat × Value} (hp : p ∈ stepsOf e.manifest e.op)
    (h : .completed p.1 ∈ (e.phaseState repr s).events) : e.record p ∈ e.completions repr s := by
  refine mem_map_of_mem (mem_filter.mpr ⟨hp, ?_⟩)
  exact contains_iff_mem.mpr h

theorem skipsJustified_execute (hinv : MarkersEarned repr s)
    (hguard : MarkersDistinct repr s (.execute e)) {p : Nat × Value}
    (hp : p ∈ stepsOf e.manifest e.op)
    (hskip : .skippedOnce p.1 ∈ (e.phaseState repr s).events) : e.record p ∈ s.completed := by
  obtain ⟨p', hp', hindex, honce, hmarker⟩ := (e.phaseMarkers s).skips p.1 hskip
  obtain rfl := eq_of_mem_stepsOf hp' hp hindex
  obtain ⟨hdistinct, hearlier⟩ := hguard p' hp honce
  obtain hmarker | ⟨q, hq, hne, hqonce, hqmarker⟩ := hmarker
  · obtain ⟨c, hc, hworkspace, hcOnce, hcMarker⟩ := hinv e.workspace _ hmarker
    rw [← hearlier hmarker c hc hworkspace hcOnce hcMarker]
    exact hc
  · exact absurd (hdistinct q hq hqonce hqmarker) hne

theorem MarkersEarned.execute (hinv : MarkersEarned repr s) {t : Workspaces}
    (hstep : s.step repr (.execute e) = some t) : MarkersEarned repr t := by
  cases hstep
  intro workspace name hname
  dsimp only at hname
  have hold : markerName name ∈ s.files workspace → ∃ c ∈ s.completed ++ e.completions repr s,
      c.workspace = workspace ∧ runsOnce c.step = true ∧
        markerOf repr (c.index, c.step) = markerName name := by
    intro hname
    obtain ⟨c, hc, hrest⟩ := hinv workspace name hname
    exact ⟨c, mem_append_left _ hc, hrest⟩
  by_cases hworkspace : workspace = e.workspace
  · subst hworkspace
    rw [Function.update_self] at hname
    obtain hname | ⟨p, hp, honce, hmarker, hcompleted⟩ := (e.phaseMarkers s).left _ hname
    · exact hold hname
    · exact ⟨e.record p, mem_append_right _ (e.mem_completions hp hcompleted), rfl, honce.2, hmarker⟩
  · rw [Function.update_of_ne hworkspace] at hname
    exact hold hname

theorem MarkersEarned.of_files (hinv : MarkersEarned repr s) {workspace : Workspace}
    {files : List String}
    (hfiles : ∀ name, markerName name ∈ files → markerName name ∈ s.files workspace) :
    MarkersEarned repr { s with files := Function.update s.files workspace files } := by
  intro other name hname
  dsimp only at hname
  by_cases hother : other = workspace
  · subst hother
    rw [Function.update_self] at hname
    exact hinv other name (hfiles name hname)
  · rw [Function.update_of_ne hother] at hname
    exact hinv other name hname

theorem MarkersEarned.step (hinv : MarkersEarned repr s) {event : WorkspaceEvent} {t : Workspaces}
    (hguard : MarkersDistinct repr s event) (hstep : s.step repr event = some t) :
    MarkersEarned repr t := by
  cases event with
  | execute e => exact hinv.execute hstep
  | write workspace name =>
    cases hstep
    refine hinv.of_files fun marker hmarker ↦ ?_
    obtain hmarker | hnew := mem_append.mp hmarker
    · exact hmarker
    · exact absurd (mem_singleton.mp hnew).symm (hguard marker)
  | remove workspace name =>
    cases hstep
    refine hinv.of_files fun marker hmarker ↦ ?_
    exact mem_of_mem_filter hmarker

/-- In a run in which the `run_once` steps of a workspace leave different markers, and only the
engine writes markers, a `run_once` step is passed over only after the same step of the same module
and phase has succeeded in that workspace. -/
theorem skips_justified {events : List WorkspaceEvent} {t : Workspaces}
    (hrun : Transition.Run (Workspaces.step repr) (MarkersDistinct repr) .initial events t) :
    Transition.AllSteps (Workspaces.step repr) (SkipsJustified repr) .initial events := by
  have hinitial : MarkersEarned repr .initial := fun _ _ hname ↦ nomatch hname
  refine hrun.allSteps hinitial fun s event t hinv hguard hstep ↦ ⟨hinv.step hguard hstep, ?_⟩
  cases event with
  | execute e => exact fun p hp hskip ↦ skipsJustified_execute hinv hguard hp hskip
  | _ => trivial

end

def setupApply (names : List String) : Execution where
  owner := ⟨7, 1, "imported-blueprint/12/cluster"⟩
  manifest := .dict [("schema_version", .int 1), ("name", .str "tool"), ("version", .str "1.0.0"),
    ("kind", .str "container_image"),
    ("container_image", .dict [("registry_host", .str "ghcr.io"), ("repository", .str "org/tool"),
      ("digest", .str ("sha256:" ++ String.ofList (List.replicate 64 '0')))]),
    ("state", .dict [("scope", .str "deployment")]),
    ("steps", .dict [("apply", .list (names.map fun name ↦ .dict [("name", .str name),
      ("args", .list [.str "tool", .str name]), ("run_once", .bool true)]))]),
    ("execution", .dict [("engine", .str "container")])]
  vars := []
  credentialsEnv := []
  op := .apply
  config := {}
  around := ⟨fun _ _ ↦ { result := some { success := true } }, [], fun _ ↦ true, fun _ ↦ none⟩

def Workspaces.after (s : Workspaces) (e : Execution) : Workspaces :=
  ⟨Function.update s.files e.workspace (e.phaseState (fun _ ↦ "") s).markers,
    s.completed ++ e.completions (fun _ ↦ "") s⟩

/-- The theorem for a step that is applied twice: it is passed over the second time. -/
theorem skips_justified_reapply :
    .skippedOnce 0 ∈ ((setupApply ["setup"]).phaseState (fun _ ↦ "")
        (Workspaces.initial.after (setupApply ["setup"]))).events ∧
      Transition.AllSteps (Workspaces.step fun _ ↦ "") (SkipsJustified fun _ ↦ "") .initial
        [.execute (setupApply ["setup"]), .execute (setupApply ["setup"])] := by
  refine ⟨by decide +kernel, ?_⟩
  have hguard (s : Workspaces) (hcompleted : ∀ c ∈ s.completed, ∃ p ∈ stepsOf
      (setupApply ["setup"]).manifest (setupApply ["setup"]).op, (setupApply ["setup"]).record p = c) :
      MarkersDistinct (fun _ ↦ "") s (.execute (setupApply ["setup"])) := by
    intro p hp honce
    obtain rfl := List.mem_singleton.mp hp
    refine ⟨fun q hq _ _ ↦ List.mem_singleton.mp hq, fun _ c hc _ _ _ ↦ ?_⟩
    obtain ⟨q, hq, rfl⟩ := hcompleted c hc
    obtain rfl := List.mem_singleton.mp hq
    rfl
  apply skips_justified (t := (Workspaces.initial.after (setupApply ["setup"])).after (setupApply ["setup"]))
  refine .cons (hguard _ nofun) rfl (.cons (hguard _ ?_) rfl (.nil _))
  intro c hc
  obtain ⟨q, hq, rfl⟩ := List.mem_map.mp hc
  exact ⟨q, (List.mem_filter.mp hq).1, rfl⟩

/-- Of two steps whose names give one marker the second is passed over, and never ran. -/
theorem marker_collision_skips :
    validateArtifactManifest (fun _ ↦ "") none none (setupApply ["set up", "set_up"]).manifest =
        .ok ((setupApply ["set up", "set_up"]).manifest, ⟨"tool@1.0.0", ["tool@1.0.0"], []⟩) ∧
      ((setupApply ["set up", "set_up"]).phaseState (fun _ ↦ "") .initial).events =
        [.completed 0, .skippedOnce 1] ∧
      ¬Transition.AllSteps (Workspaces.step fun _ ↦ "") (SkipsJustified fun _ ↦ "") .initial
        [.execute (setupApply ["set up", "set_up"])] := by
  have hevents : ((setupApply ["set up", "set_up"]).phaseState (fun _ ↦ "") .initial).events =
      [.completed 0, .skippedOnce 1] := by decide +kernel
  refine ⟨rfl, hevents, fun hall ↦ ?_⟩
  have hjustified := (hall _ rfl).1 (1, _) (List.mem_cons_of_mem _ List.mem_cons_self)
  rw [hevents] at hjustified
  exact nomatch hjustified (List.mem_cons_of_mem _ List.mem_cons_self)

end BnkForge.Container
