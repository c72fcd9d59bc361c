import BnkForge.Catalog.Inheritance
import BnkForge.Lib.Session
import BnkForge.Models.Status

/-!
# Creating a project from a release

`create_project_from_release` (`backend/services/imported_blueprint_service.py:342–416`) over a session with
the database, with `create_project` and `delete_project`
(`backend/services/project_service.py:408–515,701–812`). The project is committed before anything else is
done. A step that fails is rolled back, and what is committed by then goes with the project, which is deleted.
-/

namespace BnkForge.ProjectCreation

open BnkForge.Blueprint BnkForge.Catalog BnkForge.Dependencies BnkForge.Inheritance Faults Python List

/-! ### The rows -/

/-- A row of `stack_instances` of a release. -/
structure StackInstance where
  id : Nat
  projectId : Nat
  blueprintReleaseId : Nat
  name : String
  status : String
  vars : Dict String Value
  currentStep : Nat
  totalSteps : Nat

structure Database where
  rows : ReleaseTable
  nextProject : Nat
  name : Nat → String
  isActive : Nat → Bool
  /-- `project_variables["variable_defaults"]`. -/
  variableDefaults : Nat → Dict String Value
  /-- The columns of the modules. -/
  status : Nat → ModuleStatus
  variableOverrides : Nat → Dict String Value
  stackInstanceId : Nat → Option Nat
  stackInstances : List StackInstance
  nextStack : Nat
  projects_lt : ∀ p ∈ rows.table.projects, p < nextProject
  stacks_mem : ∀ s ∈ stackInstances, s.projectId ∈ rows.table.projects

def insertProject (table : ModuleTable) (id : Nat) : ModuleTable where
  projects := table.projects ++ [id]
  modules := table.modules
  nextId := table.nextId
  ids_lt := table.ids_lt
  nodup := table.nodup
  projects_mem m hm := List.mem_append_left _ (table.projects_mem m hm)

def removeProject (table : ModuleTable) (id : Nat) : ModuleTable where
  projects := table.projects.filter (· != id)
  modules := table.modules.filter fun m ↦ m.projectId != id
  nextId := table.nextId
  ids_lt m hm := table.ids_lt m (List.mem_filter.mp hm).1
  nodup := table.nodup.sublist (List.filter_sublist.map _)
  projects_mem m hm := by
    obtain ⟨hm, hne⟩ := List.mem_filter.mp hm
    exact List.mem_filter.mpr ⟨table.projects_mem m hm, hne⟩

def Database.addProject (db : Database) (name : String) : Database where
  rows := { db.rows with table := insertProject db.rows.table db.nextProject }
  nextProject := db.nextProject + 1
  name := Function.update db.name db.nextProject name
  isActive := Function.update db.isActive db.nextProject false
  variableDefaults := Function.update db.variableDefaults db.nextProject .empty
  status := db.status
  variableOverrides := db.variableOverrides
  stackInstanceId := db.stackInstanceId
  stackInstances := db.stackInstances
  nextStack := db.nextStack
  projects_lt p hp := by
    rcases List.mem_append.mp hp with hp | hp
    · exact Nat.lt_succ_of_lt (db.projects_lt p hp)
    · exact List.mem_singleton.mp hp ▸ Nat.lt_succ_self _
  stacks_mem s hs := List.mem_append_left _ (db.stacks_mem s hs)

def Database.removeProject (db : Database) (id : Nat) : Database :=
  { db with
    rows := { db.rows with table := ProjectCreation.removeProject db.rows.table id }
    stackInstances := db.stackInstances.filter fun s ↦ s.projectId != id
    projects_lt p hp := db.projects_lt p (List.mem_filter.mp hp).1
    stacks_mem s hs := by
      obtain ⟨hs, hne⟩ := List.mem_filter.mp hs
      exact List.mem_filter.mpr ⟨db.stacks_mem s hs, hne⟩ }

def Database.setRows (db : Database) (rows : ReleaseTable)
    (h : rows.table.projects = db.rows.table.projects) : Database :=
  { db with
    rows := rows
    projects_lt p hp := db.projects_lt p (h ▸ hp)
    stacks_mem s hs := h ▸ db.stacks_mem s hs }

/-! ### The calls -/

inductive CallError
  | release (e : CreationError)
  | notFound (entity : String) (id : Nat)
  | conflict (message : String)
  | badRequest (message : String)
  /-- A step has failed for a reason of its own. -/
  | failure (text : String)
  deriving DecidableEq, Repr

abbrev Calling := Proc CallError (Session Database)

inductive Step
  | inputDefaults | templateInheritance | sourceMappings | loadProject | variableDefaults | flushDefaults
  | createModules | createStack | wireModules | commit
  deriving DecidableEq, Repr

structure Request where
  name : String
  target : Target
  vars : Dict String Value

/-- `create_project`, which refuses a name that is taken. -/
def createProject (name : String) : Calling Nat := fun s ↦
  if s.working.rows.table.projects.any fun p ↦ s.working.name p == name then
    (.raised (.conflict "A project with this name already exists. Please choose a different name."), s)
  else
    (.returned s.working.nextProject, Session.commit { s with working := s.working.addProject name })

/-- `len(undestroyed)` of `delete_project`. -/
def undestroyed (db : Database) (projectId : Nat) : Nat :=
  (db.rows.table.ofProject projectId).countP fun m ↦ !(db.status m.id).noInfra

/-- What `delete_project` refuses. The entries of `list_held` have no `project_id`, so that no lock is found
to be held in the project. -/
def deleteRefusal (db : Database) (projectId : Nat) (force : Bool) : Option CallError :=
  if projectId ∉ db.rows.table.projects then some (.notFound "project" projectId)
  else if undestroyed db projectId ≠ 0 ∧ force = false then
    some (.conflict ("Cannot delete: " ++ toString (undestroyed db projectId) ++
      " module(s) are not destroyed and may still own cloud resources. Destroy them first, or pass " ++
      "force=true to delete the project and abandon those resources."))
  else if db.isActive projectId then
    if db.rows.table.projects.length = 1 ∧ force = true then none
    else if 1 < db.rows.table.projects.length then
      some (.badRequest "Cannot delete active project. Switch to another project first.")
    else some (.badRequest "This is your only project. Use force=true to delete it anyway.")
  else none

/-- `delete_project`. -/
def deleteProject (projectId : Nat) (force : Bool) : Calling Unit := fun s ↦
  match deleteRefusal s.working projectId force with
  | some e => (.raised e, s)
  | none => (.returned (), Session.commit { s with working := s.working.removeProject projectId })

/-- `_persist_stack_variable_defaults`. -/
def Database.persistDefaults (db : Database) (projectId : Nat) (vars : Dict String Value) : Database :=
  { db with
    variableDefaults := Function.update db.variableDefaults projectId
      ((db.variableDefaults projectId).setAll (extractStackVariableDefaults vars).items) }

/-- `stack_instance_id` of the created modules. -/
def Database.wire (db : Database) (created : List Nat) (stack : Nat) : Database :=
  { db with stackInstanceId := fun id ↦ if id ∈ created then some stack else db.stackInstanceId id }

/-! ### Creating the modules -/

section

variable {limit : Nat} {set : Graph.SetOrder} {catalog : List LibraryModule}
  {refused : ModuleDef → Option String} {release projectId : Nat} {s t : ReleaseTable}
  {created created' : List (String × Nat)} {defs : List ModuleDef} {order : Int}

/-- The columns of a row that stay as they are once it is added. -/
def place (m : ProjectRow) : Nat × Nat × String × Option LibraryEntry :=
  (m.id, m.projectId, m.pathInProject, m.library)

/-- The same rows up to their dependencies and their orders. -/
structure SamePlaces (s t : ReleaseTable) : Prop where
  projects : t.table.projects = s.table.projects
  places : t.table.modules.map place = s.table.modules.map place

theorem SamePlaces.refl (s : ReleaseTable) : SamePlaces s s := ⟨rfl, rfl⟩

theorem SamePlaces.trans {u : ReleaseTable} (hst : SamePlaces s t) (htu : SamePlaces t u) : SamePlaces s u :=
  ⟨htu.projects.trans hst.projects, htu.places.trans hst.places⟩

theorem samePlaces_putDependencies (s : ReleaseTable) (id : Nat) (deps : List Nat) :
    SamePlaces s { s with table := s.table.putDependencies id deps } := by
  refine ⟨rfl, map_map.trans (map_congr_left fun m _ ↦ ?_)⟩
  rw [Function.comp_apply]
  split <;> rfl

theorem samePlaces_setReleaseDependencies (h : setReleaseDependencies limit created s defs = .ok t) :
    SamePlaces s t := by
  induction defs generalizing s with
  | nil =>
    cases h
    exact .refl _
  | cons d ds ih =>
    unfold setReleaseDependencies at h
    split at h
    · exact ih h
    · next id hid =>
      split at h
      · exact ih h
      · split at h
        · cases h
        · next table hset =>
          obtain ⟨-, rfl⟩ := setDependencies_eq_ok hset
          exact (samePlaces_putDependencies s id _).trans (ih h)

theorem samePlaces_calculate (h : s.calculateDeploymentOrder limit set projectId true = (t, none)) :
    SamePlaces s t := by
  unfold ReleaseTable.calculateDeploymentOrder at h
  split at h
  · cases (Prod.mk.inj h).2
  · split at h
    · cases (Prod.mk.inj h).1
      exact .refl s
    · rw [if_pos rfl, ReleaseTable.sortProject] at h
      split at h
      · cases (Prod.mk.inj h).2
      · obtain ⟨rfl, -⟩ := Prod.mk.inj h
        exact ⟨rfl, map_map⟩

def PathsNodup (s : ReleaseTable) (projectId : Nat) : Prop :=
  ((s.table.ofProject projectId).map ProjectRow.pathInProject).Nodup

theorem path_fresh_of_add {m : LibraryModule} {d : ModuleDef}
    (h : addReleaseModule catalog refused release projectId s m d order = .ok t) :
    ∀ r ∈ s.table.ofProject projectId, r.pathInProject ≠ pathInProject release d := by
  unfold addReleaseModule at h
  split at h
  · cases h
  · next table hadd =>
    unfold addModule at hadd
    split at hadd
    · split at hadd
      · cases hadd
      · split at hadd
        · cases hadd
        · next hfresh => exact fun r hr heq ↦ hfresh (any_eq_true.mpr ⟨r, hr, beq_iff_eq.mpr heq⟩)
    · cases hadd

theorem places_addReleaseModules
    (h : addReleaseModules catalog refused release projectId order s created defs = .ok (t, created')) :
    t.table.projects = s.table.projects ∧
      t.table.modules.map place = s.table.modules.map place ++
        (planned catalog release projectId s.table.nextId defs).map (place ∘ Prod.snd) ∧
      (PathsNodup s projectId → PathsNodup t projectId) := by
  induction defs generalizing order s created with
  | nil =>
    cases h
    exact ⟨rfl, (append_nil _).symm, id⟩
  | cons d ds ih =>
    unfold addReleaseModules at h
    unfold planned
    cases hresolve : resolveLibraryModule catalog d with
    | none =>
      rw [hresolve] at h
      exact ih h
    | some m =>
      rw [hresolve] at h
      dsimp only at h ⊢
      split at h
      · cases h
      · next added hadd =>
        have hfresh := path_fresh_of_add hadd
        obtain ⟨entry, row, hid, hproject, hentry, rfl, hlibrary, hpath, -, htable⟩ := addReleaseModule_eq_ok hadd
        have hnext : added.table.nextId = s.table.nextId + 1 := by rw [htable]; rfl
        obtain ⟨hprojects, hplaces, hnodup⟩ := ih h
        rw [hnext] at hplaces
        refine ⟨hprojects.trans (htable ▸ rfl), ?_, fun hpaths ↦ hnodup ?_⟩
        · have hmodules : added.table.modules = s.table.modules ++ [row] := by rw [htable]; rfl
          have hplace : place row = place ⟨s.table.nextId, row.projectId, entryOf catalog m.id,
              pathInProject release d, 0, []⟩ := by rw [place, place, hid, hpath, hlibrary, hentry]
          rw [hplaces, hmodules, map_append, map_singleton, hplace, append_assoc]
          rfl
        · rw [PathsNodup, ofProject_insert htable, map_append, map_singleton, ← concat_eq_append,
            nodup_concat]
          refine ⟨fun hmem ↦ ?_, hpaths⟩
          obtain ⟨r, hr, heq⟩ := mem_map.mp hmem
          exact hfresh r hr (heq.trans hpath)

theorem paths_eq (s : ReleaseTable) (projectId : Nat) :
    (s.table.ofProject projectId).map ProjectRow.pathInProject =
      ((s.table.modules.map place).filter fun p ↦ p.2.1 == projectId).map fun p ↦ p.2.2.1 := by
  rw [filter_map, map_map]
  rfl

theorem samePlaces_paths (h : SamePlaces s t) (hpaths : PathsNodup s projectId) : PathsNodup t projectId := by
  rw [PathsNodup, paths_eq, h.places, ← paths_eq]
  exact hpaths

theorem places_createReleaseModules
    (h : createReleaseModules limit set catalog refused release projectId defs s = .ok (t, created)) :
    t.table.projects = s.table.projects ∧
      t.table.modules.map place = s.table.modules.map place ++
        (planned catalog release projectId s.table.nextId defs).map (place ∘ Prod.snd) ∧
      (PathsNodup s projectId → PathsNodup t projectId) := by
  obtain ⟨added, wired, hadd, hset, hcalculate⟩ := createReleaseModules_eq_ok h
  obtain ⟨hprojects, hplaces, hnodup⟩ := places_addReleaseModules hadd
  have hsame := (samePlaces_setReleaseDependencies hset).trans (samePlaces_calculate hcalculate)
  exact ⟨hsame.projects.trans hprojects, hsame.places.trans hplaces,
    fun hpaths ↦ samePlaces_paths hsame (hnodup hpaths)⟩

end

/-! ### The transaction -/

structure World extends Installation where
  failed : Step → Option (Failed CallError Database)

structure Answer where
  projectId : Nat
  projectName : String
  blueprintReleaseId : Nat
  moduleCount : Nat
  createdModuleIds : List Nat
  stackInstanceId : Nat
  message : String
  deriving DecidableEq, Repr

section

variable (env : Installation) (release : Inheritance.BlueprintRelease) (projectId : Nat) (vars : Dict String Value)

/-- `_get_project`. -/
def loadProject (db : Database) : Except CallError (Unit × Database) :=
  if projectId ∈ db.rows.table.projects then .ok ((), db) else .error (.notFound "project" projectId)

/-- `_create_release_modules`: the ids of the created modules. -/
def createModules (db : Database) : Except CallError (List Nat × Database) :=
  match h : createReleaseModules env.limit env.set env.catalog (refusal env release vars) release.id projectId
      (release.modules.map ReleaseModule.toModuleDef) db.rows with
  | .error e => .error (.release (.modules e))
  | .ok (rows, created) =>
    let ids := created.reverse.map Prod.snd
    let overrides := ids.zip (storedOf env release vars none).variableOverrides
    .ok (ids, {
      db.setRows rows (places_createReleaseModules h).1 with
      status := fun id ↦ if id ∈ ids then .notInitialized else db.status id
      variableOverrides := fun id ↦ (overrides.lookup id).getD (db.variableOverrides id) })

def createStack (name : String) (created : List Nat) (db : Database) : Except CallError (Nat × Database) :=
  if h : projectId ∈ db.rows.table.projects then
    .ok (db.nextStack, {
      db with
      stackInstances := db.stackInstances ++ [{
        id := db.nextStack
        projectId := projectId
        blueprintReleaseId := release.id
        name := name
        status := "pending"
        vars := vars
        currentStep := 0
        totalSteps := created.length }]
      nextStack := db.nextStack + 1
      stacks_mem := fun s hs ↦ by
        rcases List.mem_append.mp hs with hs | hs
        · exact db.stacks_mem s hs
        · exact List.mem_singleton.mp hs ▸ h })
  else .error (.failure "stack_instances_project_id_fkey")

end

variable (w : World) (release : Inheritance.BlueprintRelease) (request : Request)

/-- The body of the `try`. -/
def build (projectId : Nat) : Calling (List Nat × Nat) := do
  let env := w.toInstallation
  let vars ← Session.step (w.failed .inputDefaults)
    (pure (applyBlueprintInputDefaults env.repr release.inputs request.vars))
  let vars ← Session.step (w.failed .templateInheritance)
    (pure (applyCredentialTemplateInheritance env.decrypt request.target vars))
  let vars ← Session.step (w.failed .sourceMappings)
    (pure (applyExplicitInputSourceMappings env.decrypt release.inputs request.target vars))
  Session.step (w.failed .loadProject) (Session.attemptWrite (loadProject projectId))
  Session.step (w.failed .variableDefaults)
    (Session.write fun db ↦ ((), db.persistDefaults projectId vars))
  Session.step (w.failed .flushDefaults) (pure ())
  let created ← Session.step (w.failed .createModules)
    (Session.attemptWrite (createModules env release projectId vars))
  let stack ← Session.step (w.failed .createStack)
    (Session.attemptWrite (createStack release projectId vars request.name created))
  Session.step (w.failed .wireModules) (Session.write fun db ↦ ((), db.wire created stack))
  Session.commitStep (w.failed .commit)
  pure (created, stack)

/-- What is done where the body has raised: the exceptions of `delete_project` are logged. -/
def cleanUp (projectId : Nat) : Calling Unit := do
  Session.rollbackStep
  Proc.attempt (deleteProject projectId true) fun _ ↦ pure ()

/-- The `try` with its `except`. -/
def buildOrCleanUp (projectId : Nat) : Calling (List Nat × Nat) :=
  Proc.attempt (build w release request projectId) fun e ↦ do
    cleanUp projectId
    Proc.raise e

/-- `create_project_from_release`. -/
def createProjectFromRelease : Calling Answer := do
  match validateRelease w.catalog release.toRelease with
  | .error e => Proc.raise (.release e)
  | .ok () =>
    let projectId ← createProject request.name
    let built ← buildOrCleanUp w release request projectId
    pure {
      projectId := projectId
      projectName := request.name
      blueprintReleaseId := release.id
      moduleCount := built.1.length
      createdModuleIds := built.1
      stackInstanceId := built.2
      message := "Created project '" ++ request.name ++ "' from imported blueprint release." }

end BnkForge.ProjectCreation
