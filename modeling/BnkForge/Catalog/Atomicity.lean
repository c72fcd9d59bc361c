import BnkForge.Catalog.Creation

/-!
# Creating a project is all or nothing

Whatever step of `create_project_from_release` fails, its project, modules and stack are gone afterwards. What
is created where it returns lacks the required modules whose references do not resolve without the blanks
around them: the check before the creation looks for them as they are written.
-/

namespace BnkForge.ProjectCreation

open BnkForge.Blueprint BnkForge.Catalog BnkForge.Dependencies BnkForge.Inheritance Faults Python List

/-! ### Nothing is left -/

/-- There is one more project, which is not the active one, and nothing else that is not its own. -/
structure Extends (old db : Database) : Prop where
  projects : db.rows.table.projects = old.rows.table.projects ++ [old.nextProject]
  modules : (db.rows.table.modules.filter fun m ↦ m.projectId != old.nextProject).map ProjectRow.id =
    old.rows.table.modules.map ProjectRow.id
  stackInstances : (db.stackInstances.filter fun s ↦ s.projectId != old.nextProject) = old.stackInstances
  inactive : db.isActive old.nextProject = false

/-- The projects, modules and stacks are those that were there. -/
structure NothingLeft (old db : Database) : Prop where
  projects : db.rows.table.projects = old.rows.table.projects
  modules : db.rows.table.modules.map ProjectRow.id = old.rows.table.modules.map ProjectRow.id
  stackInstances : db.stackInstances = old.stackInstances

section

variable {w : World} {env : Installation} {release : Inheritance.BlueprintRelease} {request : Request}
  {projectId : Nat} {vars : Dict String Value} {name : String} {created : List Nat} {stack : Nat}
  {old db db' : Database}

theorem nextProject_not_mem (db : Database) : db.nextProject ∉ db.rows.table.projects :=
  fun h ↦ Nat.lt_irrefl _ (db.projects_lt _ h)

theorem extends_addProject (old : Database) (name : String) : Extends old (old.addProject name) where
  projects := rfl
  modules := by
    refine congrArg _ (filter_eq_self.mpr fun m hm ↦ bne_iff_ne.mpr fun heq ↦ ?_)
    exact nextProject_not_mem old (heq ▸ old.rows.table.projects_mem m hm)
  stackInstances := filter_eq_self.mpr fun s hs ↦ bne_iff_ne.mpr fun heq ↦
    nextProject_not_mem old (heq ▸ old.stacks_mem s hs)
  inactive := Function.update_self ..

theorem Extends.mem (h : Extends old db) : old.nextProject ∈ db.rows.table.projects :=
  h.projects ▸ mem_append_right _ (mem_singleton_self _)

theorem ids_of_places (modules : List ProjectRow) (projectId : Nat) :
    (modules.filter fun m ↦ m.projectId != projectId).map ProjectRow.id =
      ((modules.map place).filter fun p ↦ p.2.1 != projectId).map Prod.fst := by
  rw [filter_map, map_map]
  rfl

theorem filter_planned {catalog : List LibraryModule} {release next : Nat} {defs : List ModuleDef} :
    ((planned catalog release projectId next defs).map (place ∘ Prod.snd)).filter
      (fun p ↦ p.2.1 != projectId) = [] := by
  induction defs generalizing next with
  | nil => rfl
  | cons d ds ih =>
    unfold planned
    split
    · exact ih
    · rw [map_cons, filter_cons_of_neg, ih]
      simp [place]

theorem Extends.createModules (h : Extends old db)
    (hcreate : createModules env release old.nextProject vars db = .ok (created, db')) : Extends old db' := by
  unfold ProjectCreation.createModules at hcreate
  split at hcreate
  · cases hcreate
  · next rows ids hrows =>
    cases hcreate
    obtain ⟨hprojects, hplaces, -⟩ := places_createReleaseModules hrows
    refine ⟨hprojects.trans h.projects, ?_, h.stackInstances, h.inactive⟩
    change (rows.table.modules.filter _).map _ = _
    rw [ids_of_places, hplaces, filter_append, filter_planned, append_nil, ← ids_of_places, h.modules]

theorem Extends.createStack (h : Extends old db)
    (hcreate : createStack release old.nextProject vars name created db = .ok (stack, db')) :
    Extends old db' := by
  unfold ProjectCreation.createStack at hcreate
  split at hcreate
  · cases hcreate
    refine ⟨h.projects, h.modules, ?_, h.inactive⟩
    rw [filter_append, h.stackInstances, filter_singleton]
    simp
  · cases hcreate

theorem safe_build (old : Database) : Session.Safe (Extends old) (build w release request old.nextProject) := by
  unfold build
  refine .bind (.step (.pure _)) fun _ ↦ .bind (.step (.pure _)) fun _ ↦ .bind (.step (.pure _)) fun _ ↦ ?_
  refine .bind (.step (.attemptWrite fun db _ db' hdb hload ↦ ?_)) fun _ ↦ ?_
  · unfold loadProject at hload
    split at hload
    · cases hload
      exact hdb
    · cases hload
  refine .bind (.step (.write fun db hdb ↦ ⟨hdb.projects, hdb.modules, hdb.stackInstances, hdb.inactive⟩)) fun _ ↦ ?_
  refine .bind (.step (.pure _)) fun _ ↦ ?_
  refine .bind (.step (.attemptWrite fun db _ db' hdb hcreate ↦ hdb.createModules hcreate)) fun _ ↦ ?_
  refine .bind (.step (.attemptWrite fun db _ db' hdb hcreate ↦ hdb.createStack hcreate)) fun _ ↦ ?_
  refine .bind (.step (.write fun db hdb ↦ ⟨hdb.projects, hdb.modules, hdb.stackInstances, hdb.inactive⟩)) fun _ ↦ ?_
  exact .bind .commitStep fun _ ↦ .pure _

/-- `delete_project` does not refuse a project that is not the active one when it is forced. -/
theorem Extends.deleteRefusal (h : Extends old db) : deleteRefusal db old.nextProject true = none := by
  rw [ProjectCreation.deleteRefusal, if_neg (not_not.mpr h.mem), if_neg (fun h ↦ nomatch h.2), h.inactive]
  rfl

theorem Extends.nothingLeft (h : Extends old db) : NothingLeft old (db.removeProject old.nextProject) where
  projects := by
    change db.rows.table.projects.filter _ = _
    rw [h.projects, filter_append, filter_eq_self.mpr]
    · simp
    · exact fun p hp ↦ bne_iff_ne.mpr fun heq ↦ nextProject_not_mem old (heq ▸ hp)
  modules := h.modules
  stackInstances := h.stackInstances

theorem cleanUp_nothingLeft {s : Session Database} (h : Extends old s.committed) :
    (cleanUp old.nextProject s).1 = .returned () ∧
      NothingLeft old (cleanUp old.nextProject s).2.committed := by
  have hdelete : deleteProject old.nextProject true s.rollback =
      (.returned (), Session.commit { s.rollback with working := s.committed.removeProject old.nextProject }) := by
    unfold deleteProject
    rw [show s.rollback.working = s.committed from rfl, h.deleteRefusal]
  have hclean : cleanUp old.nextProject s =
      Proc.attempt (deleteProject old.nextProject true) (fun _ ↦ pure ()) s.rollback := rfl
  rw [hclean, Proc.attempt, hdelete]
  exact ⟨rfl, h.nothingLeft⟩

theorem NothingLeft.refl (db : Database) : NothingLeft db db := ⟨rfl, rfl, rfl⟩

theorem createProject_cases (name : String) (db : Database) :
    (∃ e, createProject name ⟨db, db⟩ = (.raised e, ⟨db, db⟩)) ∨
      createProject name ⟨db, db⟩ =
        (.returned db.nextProject, ⟨db.addProject name, db.addProject name⟩) := by
  unfold createProject
  split
  · exact .inl ⟨_, rfl⟩
  · exact .inr rfl

/-- What the `try` raises leaves nothing. -/
theorem buildOrCleanUp_raised {e : CallError} {s t : Session Database} (hcommitted : Extends old s.committed)
    (hworking : Extends old s.working)
    (h : buildOrCleanUp w release request old.nextProject s = (.raised e, t)) : NothingLeft old t.committed := by
  have hbuildSafe : Session.Safe (Extends old) (build w release request old.nextProject) := safe_build old
  obtain ⟨hsafe, -⟩ := hbuildSafe s hcommitted hworking
  rw [buildOrCleanUp, Proc.attempt] at h
  rcases hbuild : build w release request old.nextProject s with ⟨o, u⟩
  rw [hbuild] at h hsafe
  cases o with
  | returned built => cases h
  | stopped => cases h
  | raised e' =>
    obtain ⟨hreturned, hleft⟩ := cleanUp_nothingLeft hsafe
    rcases Proc.bind_eq_raised.mp h with hclean | ⟨⟨⟩, v, hclean, hraise⟩
    · rw [hclean] at hreturned
      cases hreturned
    · cases hraise
      rw [hclean] at hleft
      exact hleft

theorem nothingLeft_of_raised {e : CallError} {s : Session Database}
    (h : createProjectFromRelease w release request ⟨db, db⟩ = (.raised e, s)) : NothingLeft db s.committed := by
  unfold createProjectFromRelease at h
  cases hvalid : validateRelease w.catalog release.toRelease with
  | error e' =>
    rw [hvalid] at h
    cases h
    exact .refl db
  | ok valid =>
    rw [hvalid] at h
    rcases Proc.bind_eq_raised.mp h with hcreate | ⟨projectId, t, hcreate, h⟩
    · rcases createProject_cases request.name db with ⟨e', hcases⟩ | hcases
      · cases hcreate.symm.trans hcases
        exact .refl db
      · cases hcreate.symm.trans hcases
    · rcases createProject_cases request.name db with ⟨e', hcases⟩ | hcases
      · cases hcreate.symm.trans hcases
      · cases hcreate.symm.trans hcases
        rcases Proc.bind_eq_raised.mp h with hbuild | ⟨built, u, -, h⟩
        · exact buildOrCleanUp_raised (extends_addProject ..) (extends_addProject ..) hbuild
        · cases h

/-! ### Everything is there -/

/-- There is exactly one module at the path of a module of the manifest, and it is bound to what the reference
of that resolves to. -/
def HasModule (catalog : List LibraryModule) (release projectId : Nat) (table : ModuleTable) (d : ModuleDef) :
    Prop :=
  ∃ m ∈ table.ofProject projectId,
    (m.pathInProject = pathInProject release d ∧
      ∃ l, resolveLibraryModule catalog d = some l ∧ m.library = entryOf catalog l.id) ∧
    ∀ m' ∈ table.ofProject projectId, m'.pathInProject = m.pathInProject → m' = m

/-- Every required module of the manifest has exactly one module, the modules of the answer are those of the
project, and they are in the stack, which counts them. -/
structure Complete (catalog : List LibraryModule) (release : Inheritance.BlueprintRelease) (answer : Answer)
    (db : Database) : Prop where
  required : ∀ d ∈ release.modules, d.optional = false →
    HasModule catalog release.id answer.projectId db.rows.table d.toModuleDef
  created : (db.rows.table.ofProject answer.projectId).map ProjectRow.id = answer.createdModuleIds
  wired : ∀ m ∈ db.rows.table.ofProject answer.projectId, db.stackInstanceId m.id = some answer.stackInstanceId
  stack : ∃ stack ∈ db.stackInstances, stack.id = answer.stackInstanceId ∧
    stack.projectId = answer.projectId ∧ stack.totalSteps = answer.createdModuleIds.length

theorem build_eq_returned {s t : Session Database}
    (h : build w release request projectId s = (.returned (created, stack), t)) :
    ∃ vars db db₁ db₂, db.rows = s.working.rows ∧
      createModules w.toInstallation release projectId vars db = .ok (created, db₁) ∧
      createStack release projectId vars request.name created db₁ = .ok (stack, db₂) ∧
      t.committed = db₂.wire created stack := by
  unfold build at h
  obtain ⟨vars₁, s₁, h₁, h⟩ := Proc.bind_eq_returned.mp h
  obtain ⟨vars₂, s₂, h₂, h⟩ := Proc.bind_eq_returned.mp h
  obtain ⟨vars, s₃, h₃, h⟩ := Proc.bind_eq_returned.mp h
  obtain ⟨⟨⟩, s₄, h₄, h⟩ := Proc.bind_eq_returned.mp h
  obtain ⟨⟨⟩, s₅, h₅, h⟩ := Proc.bind_eq_returned.mp h
  obtain ⟨⟨⟩, s₆, h₆, h⟩ := Proc.bind_eq_returned.mp h
  obtain ⟨ids, s₇, h₇, h⟩ := Proc.bind_eq_returned.mp h
  obtain ⟨id, s₈, h₈, h⟩ := Proc.bind_eq_returned.mp h
  obtain ⟨⟨⟩, s₉, h₉, h⟩ := Proc.bind_eq_returned.mp h
  obtain ⟨⟨⟩, s₁₀, h₁₀, h⟩ := Proc.bind_eq_returned.mp h
  cases h
  cases Session.step_eq_returned h₁
  cases Session.step_eq_returned h₂
  cases Session.step_eq_returned h₃
  have hload := (Session.attemptWrite_eq_returned (Session.step_eq_returned h₄)).1
  cases Session.step_eq_returned h₅
  cases Session.step_eq_returned h₆
  have hmodules := (Session.attemptWrite_eq_returned (Session.step_eq_returned h₇)).1
  have hstack := (Session.attemptWrite_eq_returned (Session.step_eq_returned h₈)).1
  cases Session.step_eq_returned h₉
  refine ⟨_, _, _, _, ?_, hmodules, hstack, congrArg Session.committed (Session.commitStep_eq_returned h₁₀)⟩
  unfold loadProject at hload
  split at hload
  · change s₄.working.rows = s.working.rows
    exact congrArg Database.rows (Prod.mk.inj (Except.ok.inj hload)).2.symm
  · cases hload

theorem places_ofProject (table : ModuleTable) (projectId : Nat) :
    (table.ofProject projectId).map place =
      (table.modules.map place).filter fun p ↦ p.2.1 == projectId := by
  rw [filter_map]
  rfl

theorem mem_planned {catalog : List LibraryModule} {release next : Nat} {defs : List ModuleDef} {d : ModuleDef}
    {l : LibraryModule} (hd : d ∈ defs) (h : resolveLibraryModule catalog d = some l) :
    ∃ p ∈ (planned catalog release projectId next defs).map (place ∘ Prod.snd),
      p.2.2 = (pathInProject release d, entryOf catalog l.id) := by
  induction defs generalizing next with
  | nil => cases hd
  | cons e ds ih =>
    unfold planned
    rcases mem_cons.mp hd with rfl | hd
    · rw [h]
      exact ⟨_, mem_cons_self, rfl⟩
    · split
      · exact ih hd
      · obtain ⟨p, hp, hplace⟩ := @ih (next + 1) hd
        exact ⟨p, mem_cons_of_mem _ hp, hplace⟩

theorem filter_planned_self {catalog : List LibraryModule} {release next : Nat} {defs : List ModuleDef} :
    ((planned catalog release projectId next defs).map (place ∘ Prod.snd)).filter
      (fun p ↦ p.2.1 == projectId) = (planned catalog release projectId next defs).map (place ∘ Prod.snd) := by
  have hnone := @filter_planned projectId catalog release next defs
  rw [filter_eq_nil_iff] at hnone
  refine filter_eq_self.mpr fun p hp ↦ ?_
  simpa using hnone p hp

theorem createModules_spec (hempty : db.rows.table.ofProject projectId = [])
    (h : createModules env release projectId vars db = .ok (created, db')) :
    (db'.rows.table.ofProject projectId).map place = (planned env.catalog release.id projectId
      db.rows.table.nextId (release.modules.map ReleaseModule.toModuleDef)).map (place ∘ Prod.snd) ∧
    (db'.rows.table.ofProject projectId).map ProjectRow.id = created ∧
    PathsNodup db'.rows projectId := by
  unfold createModules at h
  split at h
  · cases h
  · next rows ids hrows =>
    cases h
    obtain ⟨-, hplaces, hnodup⟩ := places_createReleaseModules hrows
    obtain ⟨added, wired, hadd, -, -⟩ := createReleaseModules_eq_ok hrows
    have hids := (addReleaseModules_eq_ok hadd).1
    rw [append_nil] at hids
    have hmap : (rows.table.ofProject projectId).map place = (planned env.catalog release.id projectId
        db.rows.table.nextId (release.modules.map ReleaseModule.toModuleDef)).map (place ∘ Prod.snd) := by
      rw [places_ofProject, hplaces, filter_append, ← places_ofProject, hempty, map_nil, nil_append,
        filter_planned_self]
    refine ⟨hmap, ?_, hnodup ?_⟩
    · have hfst := congrArg (List.map Prod.fst) hmap
      rw [map_map, map_map] at hfst
      refine Eq.trans hfst ?_
      rw [hids, reverse_reverse, map_map]
      rfl
    · rw [PathsNodup, hempty]
      exact nodup_nil

theorem hasModule_iff {d : ModuleDef} (hempty : db.rows.table.ofProject projectId = [])
    (h : createModules env release projectId vars db = .ok (created, db'))
    (hd : d ∈ release.modules.map ReleaseModule.toModuleDef) :
    HasModule env.catalog release.id projectId db'.rows.table d ↔
      (resolveLibraryModule env.catalog d).isSome = true := by
  obtain ⟨hplaces, -, hnodup⟩ := createModules_spec hempty h
  constructor
  · rintro ⟨m, -, ⟨-, l, hl, -⟩, -⟩
    rw [hl]
    rfl
  · intro hsome
    obtain ⟨l, hl⟩ := Option.isSome_iff_exists.mp hsome
    obtain ⟨p, hp, hplace⟩ := @mem_planned projectId env.catalog release.id db.rows.table.nextId _ d l hd hl
    rw [← hplaces] at hp
    obtain ⟨m, hm, rfl⟩ := mem_map.mp hp
    obtain ⟨hpath, hlibrary⟩ := Prod.mk.inj hplace
    exact ⟨m, hm, ⟨hpath, l, hl, hlibrary⟩,
      fun m' hm' hsame ↦ inj_on_of_nodup_map hnodup hm' hm hsame⟩

theorem ofProject_addProject (db : Database) (name : String) :
    (db.addProject name).rows.table.ofProject db.nextProject = [] :=
  filter_eq_nil_iff.mpr fun m hm heq ↦
    nextProject_not_mem db (eq_of_beq heq ▸ db.rows.table.projects_mem m hm)

theorem buildOrCleanUp_returned {built : List Nat × Nat} {s t : Session Database}
    (h : buildOrCleanUp w release request projectId s = (.returned built, t)) :
    build w release request projectId s = (.returned built, t) := by
  rw [buildOrCleanUp, Proc.attempt] at h
  rcases hbuild : build w release request projectId s with ⟨o, u⟩
  rw [hbuild] at h
  cases o with
  | returned built => exact h
  | stopped => cases h
  | raised e =>
    obtain ⟨⟨⟩, v, -, hraise⟩ := Proc.bind_eq_returned.mp h
    cases hraise

theorem createStack_eq_ok (h : createStack release projectId vars name created db = .ok (stack, db')) :
    db'.rows = db.rows ∧ ∃ s ∈ db'.stackInstances, s.id = stack ∧ s.projectId = projectId ∧
      s.totalSteps = created.length := by
  unfold createStack at h
  split at h
  · cases h
    exact ⟨rfl, _, mem_append_right _ (mem_singleton_self _), rfl, rfl, rfl⟩
  · cases h

theorem complete_iff {answer : Answer} {s : Session Database}
    (h : createProjectFromRelease w release request ⟨db, db⟩ = (.returned answer, s)) :
    Complete w.catalog release answer s.committed ↔
      ∀ d ∈ release.modules, d.optional = false →
        (resolveLibraryModule w.catalog d.toModuleDef).isSome = true := by
  unfold createProjectFromRelease at h
  cases hvalid : validateRelease w.catalog release.toRelease with
  | error e =>
    rw [hvalid] at h
    cases h
  | ok valid =>
    rw [hvalid] at h
    obtain ⟨projectId, t, hcreate, h⟩ := Proc.bind_eq_returned.mp h
    rcases createProject_cases request.name db with ⟨e', hcases⟩ | hcases
    · cases hcreate.symm.trans hcases
    · cases hcreate.symm.trans hcases
      obtain ⟨⟨created, stack⟩, u, hbuild, h⟩ := Proc.bind_eq_returned.mp h
      cases h
      obtain ⟨vars, db₀, db₁, db₂, hrows, hmodules, hstack, hcommitted⟩ :=
        build_eq_returned (buildOrCleanUp_returned hbuild)
      obtain ⟨hrows₂, hstack⟩ := createStack_eq_ok hstack
      have hempty : db₀.rows.table.ofProject db.nextProject = [] := by
        rw [hrows]
        exact ofProject_addProject db request.name
      obtain ⟨-, hids, -⟩ := createModules_spec hempty hmodules
      have htable : s.committed.rows.table = db₁.rows.table := by
        rw [hcommitted]
        exact congrArg ReleaseTable.table hrows₂
      have hmodule : ∀ d ∈ release.modules,
          HasModule w.catalog release.id db.nextProject s.committed.rows.table d.toModuleDef ↔
            (resolveLibraryModule w.catalog d.toModuleDef).isSome = true := fun d hd ↦ by
        rw [htable]
        exact hasModule_iff hempty hmodules (mem_map_of_mem hd)
      constructor
      · exact fun hcomplete d hd hrequired ↦ (hmodule d hd).mp (hcomplete.required d hd hrequired)
      · intro hresolved
        refine ⟨fun d hd hrequired ↦ (hmodule d hd).mpr (hresolved d hd hrequired), ?_, fun m hm ↦ ?_, ?_⟩
        · rw [htable]
          exact hids
        · rw [htable] at hm
          have hmem : m.id ∈ created := hids ▸ mem_map_of_mem hm
          rw [hcommitted]
          exact if_pos hmem
        · rw [hcommitted]
          exact hstack

end

section

variable (w : World) (release : Inheritance.BlueprintRelease) (request : Request) (db : Database)

/-- Where the call raises, at whatever step, nothing is left; where it returns, everything is there if and
only if the references of the required modules resolve without the blanks around them. -/
theorem all_or_nothing_iff :
    (∀ e s, createProjectFromRelease w release request ⟨db, db⟩ = (.raised e, s) →
      NothingLeft db s.committed) ∧
    ∀ answer s, createProjectFromRelease w release request ⟨db, db⟩ = (.returned answer, s) →
      (Complete w.catalog release answer s.committed ↔
        ∀ d ∈ release.modules, d.optional = false →
          (resolveLibraryModule w.catalog d.toModuleDef).isSome = true) :=
  ⟨fun _ _ ↦ nothingLeft_of_raised, fun _ _ ↦ complete_iff⟩

end

def vpcSite (path : String) : World where
  repr _ := ""
  decrypt := some
  limit := 1000
  set := listOrder
  catalog := [⟨⟨"vpc", path, none⟩, 1, some "1.0.0", true, true, none, []⟩]
  variablesSchema _ := []
  validate _ _ _ := none
  failed _ := none

def vpcRelease (path : String) : Inheritance.BlueprintRelease where
  id := 7
  validationState := "valid"
  releaseState := "imported"
  sourcePath := none
  blueprintName := "network"
  modules := [{ id := "vpc", module := path, version := some "1.0.0", optional := false, dependsOn := [] }]
  inputs := []
  prerequisites := []

private theorem no_ids_lt : ∀ m ∈ ([] : List ProjectRow), m.id < 1 := by simp

def emptyDatabase : Database where
  rows := ⟨⟨[], [], 1, no_ids_lt, List.nodup_nil, nofun⟩, fun _ ↦ true, fun _ ↦ []⟩
  nextProject := 1
  name _ := ""
  isActive _ := false
  variableDefaults _ := .empty
  status _ := .notInitialized
  variableOverrides _ := .empty
  stackInstanceId _ := none
  stackInstances := []
  nextStack := 1
  projects_lt := nofun
  stacks_mem := nofun

def vpcRequest : Request := ⟨"network", {}, .empty⟩

def vpcAnswer (created : List Nat) : Answer where
  projectId := 1
  projectName := "network"
  blueprintReleaseId := 7
  moduleCount := created.length
  createdModuleIds := created
  stackInstanceId := 1
  message := "Created project 'network' from imported blueprint release."

def createVpc (w : World) (path : String) : Outcome CallError Answer × Session Database :=
  createProjectFromRelease w (vpcRelease path) vpcRequest ⟨emptyDatabase, emptyDatabase⟩

theorem createVpc_eq (w : World) (path : String) {o : Outcome CallError Answer}
    (h : (createVpc w path).1 = o) :
    createProjectFromRelease w (vpcRelease path) vpcRequest ⟨emptyDatabase, emptyDatabase⟩ =
      (o, (createVpc w path).2) := Prod.ext h rfl

def lostCommit : World :=
  { vpcSite "infra/vpc" with
    failed := fun step ↦ if step = .commit then some ⟨.failure "connection lost", id, true⟩ else none }

/-- The module is created, and it is gone where the answer of the commit is lost. -/
theorem vpc_created_or_gone :
    (∃ answer s, createVpc (vpcSite "infra/vpc") "infra/vpc" = (.returned answer, s) ∧
      Complete (vpcSite "infra/vpc").catalog (vpcRelease "infra/vpc") answer s.committed) ∧
    ∃ e s, createVpc lostCommit "infra/vpc" = (.raised e, s) ∧ NothingLeft emptyDatabase s.committed := by
  constructor
  · have hcall := createVpc_eq (vpcSite "infra/vpc") "infra/vpc" (o := .returned (vpcAnswer [1]))
      (by decide +kernel)
    exact ⟨_, _, hcall, ((all_or_nothing_iff _ _ _ _).2 _ _ hcall).mpr (by decide +kernel)⟩
  · have hcall := createVpc_eq lostCommit "infra/vpc" (o := .raised (.failure "connection lost"))
      (by decide +kernel)
    exact ⟨_, _, hcall, (all_or_nothing_iff _ _ _ _).1 _ _ hcall⟩

/-- A reference that is written with a blank is found as it is written, and no module is created for it. -/
theorem blank_reference_skipped :
    ¬ ∀ (w : World) (release : Inheritance.BlueprintRelease) (request : Request) (db : Database) (answer : Answer)
      (s : Session Database), createProjectFromRelease w release request ⟨db, db⟩ = (.returned answer, s) →
      Complete w.catalog release answer s.committed := by
  intro h
  have hcall := createVpc_eq (vpcSite "infra/vpc ") "infra/vpc " (o := .returned (vpcAnswer []))
    (by decide +kernel)
  obtain ⟨m, -, ⟨-, l, hresolve, -⟩, -⟩ := (h _ _ _ _ _ _ hcall).required _ (List.mem_singleton_self _) rfl
  have hnone : resolveLibraryModule (vpcSite "infra/vpc ").catalog
      ⟨"vpc", "infra/vpc ", some "1.0.0", false, []⟩ = none := by decide +kernel
  cases hnone.symm.trans hresolve

end BnkForge.ProjectCreation
