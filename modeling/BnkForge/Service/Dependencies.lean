import BnkForge.Graph.Dependencies
import BnkForge.Lib.Assoc
import BnkForge.Lib.PythonText
import BnkForge.Lib.Rank
import BnkForge.Lib.Transition

/-!
# The dependencies of the modules of a project

`add_module`, `set_dependencies` and `remove_module`
(`backend/services/project_module_service.py:151–248,380–412,473–505`) with
`detect_module_dependencies` (`backend/services/project_service.py:942–1058`), over the rows of
`project_modules`. A call that raises leaves the rows as they are. The statuses, the variables and
the counts of a project are left out.
-/

namespace BnkForge.Dependencies

open BnkForge.Graph Transition List

/-! ### The table -/

/-- The columns of a catalog entry that the detection reads; `required` holds the `module` of each
required dependency, where the entry has dependency metadata. -/
structure LibraryEntry where
  name : String
  path : String
  required : Option (List (Option String))
  deriving DecidableEq, Repr

/-- A row of `project_modules`. -/
structure ProjectRow where
  id : Nat
  projectId : Nat
  library : Option LibraryEntry
  pathInProject : String
  deploymentOrder : Int
  dependencies : List Nat
  deriving DecidableEq, Repr

structure ModuleTable where
  projects : List Nat
  modules : List ProjectRow
  nextId : Nat
  ids_lt : ∀ m ∈ modules, m.id < nextId
  nodup : (modules.map ProjectRow.id).Nodup
  projects_mem : ∀ m ∈ modules, m.projectId ∈ projects

/-- What the calls raise. -/
inductive DependencyError
  | notFound (entity : String) (id : Nat)
  | badRequest (message : String)
  | conflict (message : String)
  | attributeError
  | search (e : Graph.SearchError)
  deriving DecidableEq, Repr

/-! ### Detection -/

/-- `MODULE_DEPENDENCY_RULES`. -/
def moduleDependencyRules : List (String × List String) :=
  [("vpc", []), ("vnet", []), ("network", []), ("networking", []),
    ("eks", ["vpc", "network"]), ("aks", ["vnet", "network"]), ("gke", ["network"]),
    ("kubernetes", ["vpc", "vnet", "network"]), ("k8s", ["vpc", "vnet", "network"]),
    ("database", ["vpc", "vnet", "network"]), ("rds", ["vpc", "network"]),
    ("aurora", ["vpc", "network"]), ("storage", ["vpc", "vnet", "network"]),
    ("bnk", ["eks", "aks", "gke", "kubernetes", "k8s"]),
    ("f5", ["eks", "aks", "gke", "kubernetes", "k8s"]),
    ("big-ip", ["eks", "aks", "gke", "kubernetes", "k8s"]),
    ("ingress", ["eks", "aks", "gke", "kubernetes", "k8s"]),
    ("load-balancer", ["vpc", "vnet", "network"]), ("security", ["vpc", "vnet", "network"]),
    ("firewall", ["vpc", "vnet", "network"]),
    ("monitoring", ["vpc", "vnet", "eks", "aks", "gke", "kubernetes"]),
    ("prometheus", ["eks", "aks", "gke", "kubernetes"])]

/-- `existing_by_path`: a later row takes over the place of an earlier one with its path. -/
def existingByPath (existing : List ProjectRow) : List (String × Nat) :=
  existing.foldl (fun paths m ↦
    match m.library with
    | none => paths
    | some entry =>
      if paths.any fun p ↦ p.1 == entry.path then
        paths.map fun p ↦ if p.1 = entry.path then (p.1, m.id) else p
      else paths ++ [(entry.path, m.id)]) []

/-- A path without `infra/`. -/
def normalizedPath (path : String) : List Char := Python.replace "infra/".toList [] path.toList

/-- The row that a required dependency stands for, if there is one. -/
def matchedId (paths : List (String × Nat)) : Option String → Except DependencyError (Option Nat)
  | none => .error .attributeError
  | some path =>
    match paths.lookup path with
    | some id => .ok (some id)
    | none => .ok ((paths.find? fun p ↦ normalizedPath path == normalizedPath p.1).map Prod.snd)

/-- The dependencies by the metadata of the entry. -/
def requiredIds (paths : List (String × Nat)) :
    List (Option String) → Except DependencyError (List Nat)
  | [] => .ok []
  | dep :: deps => do
    let matched ← matchedId paths dep
    let rest ← requiredIds paths deps
    match matched with
    | some id => .ok (if id = 0 then rest else id :: rest)
    | none => .ok rest

def underscored (name : String) : List Char :=
  Python.replace [' '] ['_'] (Python.replace ['-'] ['_'] (Python.lower name.toList))

/-- One of the names is part of the other. -/
def related (a b : List Char) : Bool := Python.contains a b || Python.contains b a

def ruleName (m : ProjectRow) : List Char :=
  underscored (match m.library with
    | some entry => entry.name
    | none => String.ofList ((m.pathInProject.toList.splitOn '/').getLastD []))

def ruleIds (name : String) (existing : List ProjectRow) : List Nat :=
  let rule := moduleDependencyRules.find? fun r ↦ related (underscored name) r.1.toList
  ((rule.map Prod.snd).getD []).foldl (fun ids dep ↦
    existing.foldl (fun ids m ↦
      if related dep.toList (ruleName m) && !ids.contains m.id then ids ++ [m.id] else ids) ids) []

/-- `detect_module_dependencies`. -/
def detectModuleDependencies (entry : LibraryEntry) (existing : List ProjectRow) :
    Except DependencyError (List Nat) :=
  match entry.required with
  | some required => requiredIds (existingByPath existing) required
  | none => .ok (ruleIds entry.name existing)

/-! ### The calls -/

def ModuleTable.ofProject (s : ModuleTable) (projectId : Nat) : List ProjectRow :=
  s.modules.filter fun m ↦ m.projectId == projectId

def ModuleTable.get? (s : ModuleTable) (id : Nat) : Option ProjectRow :=
  s.modules.find? fun m ↦ m.id == id

def ModuleTable.insert (s : ModuleTable) (m : ProjectRow) (hid : m.id = s.nextId)
    (hproject : m.projectId ∈ s.projects) : ModuleTable where
  projects := s.projects
  modules := s.modules ++ [m]
  nextId := s.nextId + 1
  ids_lt r hr := by
    rcases List.mem_append.mp hr with hr | hr
    · exact Nat.lt_succ_of_lt (s.ids_lt r hr)
    · rw [List.mem_singleton.mp hr, hid]
      exact Nat.lt_succ_self _
  nodup := by
    rw [List.map_append, List.map_singleton, ← List.concat_eq_append, List.nodup_concat]
    refine ⟨fun hmem ↦ ?_, s.nodup⟩
    obtain ⟨r, hr, heq⟩ := List.mem_map.mp hmem
    have := s.ids_lt r hr
    omega
  projects_mem r hr := by
    rcases List.mem_append.mp hr with hr | hr
    · exact s.projects_mem r hr
    · rw [List.mem_singleton.mp hr]
      exact hproject

/-- `module.dependencies = dependency_ids`. -/
def ModuleTable.putDependencies (s : ModuleTable) (id : Nat) (deps : List Nat) : ModuleTable where
  projects := s.projects
  modules := s.modules.map fun m ↦ if m.id = id then { m with dependencies := deps } else m
  nextId := s.nextId
  ids_lt r hr := by
    obtain ⟨m, hm, rfl⟩ := List.mem_map.mp hr
    split <;> exact s.ids_lt m hm
  nodup := by
    have hids : (s.modules.map fun m ↦ if m.id = id then { m with dependencies := deps } else m).map
        ProjectRow.id = s.modules.map ProjectRow.id := by
      rw [List.map_map]
      refine List.map_congr_left fun m _ ↦ ?_
      simp only [Function.comp_apply]
      split <;> rfl
    rw [hids]
    exact s.nodup
  projects_mem r hr := by
    obtain ⟨m, hm, rfl⟩ := List.mem_map.mp hr
    split <;> exact s.projects_mem m hm

def ModuleTable.delete (s : ModuleTable) (id : Nat) : ModuleTable where
  projects := s.projects
  modules := s.modules.filter fun m ↦ m.id != id
  nextId := s.nextId
  ids_lt r hr := s.ids_lt r (List.mem_filter.mp hr).1
  nodup := s.nodup.sublist (List.filter_sublist.map _)
  projects_mem r hr := s.projects_mem r (List.mem_filter.mp hr).1

/-- A finished call: the rows afterwards and what it raised. -/
abbrev Call := ModuleTable × Option DependencyError

/-- `deployment_order` of a new row. -/
def orderFor (order : Int) (deps : List Nat) (existing : List ProjectRow) : Int :=
  if deps ≠ [] ∧ order = 0 then
    (((existing.filter fun m ↦ deps.contains m.id).map ProjectRow.deploymentOrder).max?.getD 0) + 1
  else order

/-- `add_module`; `refused` is the refusal of the variable overrides, where there is one. -/
def addModule (library : Nat → Option LibraryEntry) (projectId libraryId : Nat) (path : String)
    (order : Int) (refused : Option String) (s : ModuleTable) : Call :=
  if hproject : projectId ∈ s.projects then
    match library libraryId with
    | none => (s, some (.notFound "module" libraryId))
    | some entry =>
      if (s.ofProject projectId).any fun m ↦ m.pathInProject == path then
        (s, some (.badRequest ("Module already exists at path '" ++ path ++ "'")))
      else
        match refused with
        | some message => (s, some (.badRequest message))
        | none =>
          match detectModuleDependencies entry (s.ofProject projectId) with
          | .error e => (s, some e)
          | .ok deps =>
            (s.insert {
              id := s.nextId
              projectId := projectId
              library := some entry
              pathInProject := path
              deploymentOrder := orderFor order deps (s.ofProject projectId)
              dependencies := deps } rfl hproject, none)
  else (s, some (.notFound "project" projectId))

def ProjectRow.toDependencyRow (m : ProjectRow) : DependencyRow :=
  ⟨m.id, m.projectId, m.dependencies⟩

/-- `set_dependencies`. -/
def setDependencies (limit id : Nat) (deps : List Nat) (s : ModuleTable) : Call :=
  match s.get? id with
  | none => (s, some (.notFound "module" id))
  | some m =>
    match validateDependencies limit id deps m.projectId
        ((s.ofProject m.projectId).map ProjectRow.toDependencyRow) with
    | .error e => (s, some (.search e))
    | .ok (some message) => (s, some (.badRequest message))
    | .ok none => (s.putDependencies id deps, none)

/-- `remove_module`; `holder` holds the lock of the module, where it is held. -/
def removeModule (id : Nat) (holder : Option String) (s : ModuleTable) : Call :=
  match s.get? id with
  | none => (s, some (.notFound "module" id))
  | some m =>
    if m.projectId ∈ s.projects then
      match holder with
      | some holder =>
        (s, some (.conflict ("Cannot delete: operation in progress on this module (holder: " ++
          holder ++ ")")))
      | none => (s.delete id, none)
    else (s, some (.notFound "project" m.projectId))

/-- A call of the service. -/
inductive DependencyEvent
  | add (projectId libraryId : Nat) (path : String) (order : Int) (refused : Option String)
  | set (id : Nat) (deps : List Nat)
  | remove (id : Nat) (holder : Option String)
  deriving DecidableEq, Repr

/-- The rows after a call. -/
def dependencyStep (library : Nat → Option LibraryEntry) (limit : Nat) (s : ModuleTable) :
    DependencyEvent → Option ModuleTable
  | .add projectId libraryId path order refused =>
    some (addModule library projectId libraryId path order refused s).1
  | .set id deps => some (setDependencies limit id deps s).1
  | .remove id holder => some (removeModule id holder s).1

/-! ### Well-formed dependencies -/

/-- The module `a` lists `b` as a dependency. -/
def DependsOn (s : ModuleTable) (a b : Nat) : Prop := ∃ m ∈ s.modules, m.id = a ∧ b ∈ m.dependencies

/-- Dependencies are modules of the same project, and the dependency map has no cycle. -/
structure WellFormed (s : ModuleTable) : Prop where
  existing : ∀ m ∈ s.modules, ∀ dep ∈ m.dependencies,
    ∃ m' ∈ s.modules, m'.id = dep ∧ m'.projectId = m.projectId
  acyclic : ∀ id, ¬ Relation.TransGen (DependsOn s) id id

def Unreferenced (s : ModuleTable) : DependencyEvent → Prop
  | .remove id none => ∀ m ∈ s.modules, id ∉ m.dependencies
  | _ => True

instance (s : ModuleTable) (e : DependencyEvent) : Decidable (Unreferenced s e) :=
  match e with
  | .remove id none => inferInstanceAs (Decidable (∀ m ∈ s.modules, id ∉ m.dependencies))
  | .remove _ (some _) => isTrue trivial
  | .add .. => isTrue trivial
  | .set .. => isTrue trivial

section

variable {s t : ModuleTable} {library : Nat → Option LibraryEntry} {limit : Nat}

private theorem row_unique {m m' : ProjectRow} (hm : m ∈ s.modules) (hm' : m' ∈ s.modules)
    (hid : m.id = m'.id) : m = m' :=
  inj_on_of_nodup_map s.nodup hm hm' hid

theorem get?_eq_some {id : Nat} {m : ProjectRow} (h : s.get? id = some m) :
    m ∈ s.modules ∧ m.id = id :=
  ⟨mem_of_find?_eq_some h, by simpa using find?_some h⟩

/-! ### Detected dependencies -/

private theorem existingByPath_snd (existing : List ProjectRow) :
    ∀ p ∈ existingByPath existing, p.2 ∈ existing.map ProjectRow.id := by
  refine List.foldlRecOn existing _ (motive := fun paths : List (String × Nat) ↦
    ∀ p ∈ paths, p.2 ∈ existing.map ProjectRow.id) (fun _ h ↦ nomatch h) ?_
  intro paths hpaths m hm p hp
  have hid : m.id ∈ existing.map ProjectRow.id := mem_map_of_mem hm
  split at hp
  · exact hpaths p hp
  · split at hp
    · obtain ⟨q, hq, rfl⟩ := mem_map.mp hp
      split
      · exact hid
      · exact hpaths q hq
    · rcases mem_append.mp hp with hp | hp
      · exact hpaths p hp
      · rw [mem_singleton.mp hp]
        exact hid

private theorem matchedId_mem {paths : List (String × Nat)} {dep : Option String} {id : Nat}
    (h : matchedId paths dep = .ok (some id)) : ∃ p ∈ paths, p.2 = id := by
  unfold matchedId at h
  split at h
  · cases h
  · split at h
    · next hlookup =>
      cases h
      exact ⟨_, Assoc.mem_of_lookup hlookup, rfl⟩
    · obtain ⟨p, hfind, rfl⟩ := Option.map_eq_some_iff.mp (Except.ok.inj h)
      exact ⟨p, mem_of_find?_eq_some hfind, rfl⟩

private theorem requiredIds_mem {paths : List (String × Nat)} {required : List (Option String)}
    {ids : List Nat} (h : requiredIds paths required = .ok ids) :
    ∀ id ∈ ids, ∃ p ∈ paths, p.2 = id := by
  induction required generalizing ids with
  | nil =>
    cases h
    exact nofun
  | cons dep deps ih =>
    unfold requiredIds at h
    cases hmatched : matchedId paths dep with
    | error e =>
      rw [hmatched] at h
      cases h
    | ok matched =>
      cases hrest : requiredIds paths deps with
      | error e =>
        rw [hmatched, hrest] at h
        cases h
      | ok rest =>
        rw [hmatched, hrest] at h
        cases matched with
        | none =>
          cases h
          exact ih hrest
        | some found =>
          intro id hid
          replace h := Except.ok.inj h
          split at h
          · subst h
            exact ih hrest id hid
          · subst h
            rcases mem_cons.mp hid with rfl | hid
            · exact matchedId_mem hmatched
            · exact ih hrest id hid

private theorem ruleIds_mem (name : String) (existing : List ProjectRow) :
    ∀ id ∈ ruleIds name existing, id ∈ existing.map ProjectRow.id := by
  unfold ruleIds
  refine List.foldlRecOn _ _ (motive := fun ids ↦ ∀ id ∈ ids, id ∈ existing.map ProjectRow.id)
    (fun _ h ↦ nomatch h) fun ids hids dep _ ↦ ?_
  refine List.foldlRecOn existing _ (motive := fun ids ↦ ∀ id ∈ ids, id ∈ existing.map ProjectRow.id)
    hids fun ids hids m hm id hid ↦ ?_
  split at hid
  · rcases mem_append.mp hid with hid | hid
    · exact hids id hid
    · rw [mem_singleton.mp hid]
      exact mem_map_of_mem hm
  · exact hids id hid

private theorem detect_mem {entry : LibraryEntry} {existing : List ProjectRow} {ids : List Nat}
    (h : detectModuleDependencies entry existing = .ok ids) :
    ∀ id ∈ ids, ∃ m ∈ existing, m.id = id := by
  intro id hid
  apply mem_map.mp
  unfold detectModuleDependencies at h
  split at h
  · obtain ⟨p, hp, rfl⟩ := requiredIds_mem h id hid
    exact existingByPath_snd existing p hp
  · cases h
    exact ruleIds_mem entry.name existing id hid

/-- A row without the columns that the detection leaves alone. -/
def ProjectRow.bare (m : ProjectRow) : ProjectRow :=
  { m with projectId := 0, deploymentOrder := 0, dependencies := [] }

theorem detect_bare (entry : LibraryEntry) (existing : List ProjectRow) :
    detectModuleDependencies entry (existing.map ProjectRow.bare) =
      detectModuleDependencies entry existing := by
  have hpaths : existingByPath (existing.map ProjectRow.bare) = existingByPath existing :=
    foldl_map
  have hrules : ruleIds entry.name (existing.map ProjectRow.bare) = ruleIds entry.name existing := by
    unfold ruleIds
    simp only [foldl_map]
    rfl
  unfold detectModuleDependencies
  rw [hpaths, hrules]

theorem detect_congr {existing existing' : List ProjectRow}
    (h : existing.map ProjectRow.bare = existing'.map ProjectRow.bare) (entry : LibraryEntry) :
    detectModuleDependencies entry existing = detectModuleDependencies entry existing' := by
  rw [← detect_bare, h, detect_bare]

/-! ### The three calls -/

private theorem WellFormed.insert (h : WellFormed s) {m : ProjectRow} (hid : m.id = s.nextId)
    (hproject : m.projectId ∈ s.projects)
    (hdeps : ∀ dep ∈ m.dependencies, ∃ m' ∈ s.modules, m'.id = dep ∧ m'.projectId = m.projectId) :
    WellFormed (s.insert m hid hproject) := by
  constructor
  · intro r hr dep hdep
    have : ∃ m' ∈ s.modules, m'.id = dep ∧ m'.projectId = r.projectId := by
      rcases mem_append.mp hr with hr | hr
      · exact h.existing r hr dep hdep
      · rw [mem_singleton.mp hr] at hdep ⊢
        exact hdeps dep hdep
    obtain ⟨m', hm', heq⟩ := this
    exact ⟨m', mem_append_left _ hm', heq⟩
  · -- nothing leads to the new row, so that a cycle is one of the old rows
    have hbelow : ∀ a b, DependsOn (s.insert m hid hproject) a b → b < s.nextId := by
      rintro a b ⟨r, hr, -, hb⟩
      rcases mem_append.mp hr with hr | hr
      · obtain ⟨m', hm', rfl, -⟩ := h.existing r hr b hb
        exact s.ids_lt m' hm'
      · rw [mem_singleton.mp hr] at hb
        obtain ⟨m', hm', rfl, -⟩ := hdeps b hb
        exact s.ids_lt m' hm'
    have hold : ∀ a b, a < s.nextId → DependsOn (s.insert m hid hproject) a b →
        DependsOn s a b := by
      rintro a b ha ⟨r, hr, rfl, hb⟩
      rcases mem_append.mp hr with hr | hr
      · exact ⟨r, hr, rfl, hb⟩
      · rw [mem_singleton.mp hr] at ha
        omega
    intro id hcycle
    have hlt : id < s.nextId := by
      obtain ⟨a, -, ha⟩ := Relation.TransGen.tail'_iff.mp hcycle
      exact hbelow a id ha
    exact h.acyclic id (Rank.transGen_of_closed (fun a b _ ↦ hbelow a b) hold hlt hcycle)

private theorem mem_putDependencies {id : Nat} {deps : List Nat} {r : ProjectRow} :
    r ∈ (s.putDependencies id deps).modules ↔ ∃ m ∈ s.modules,
      (if m.id = id then { m with dependencies := deps } else m) = r :=
  mem_map

private theorem neighbors_hypothetical {id : Nat} {deps : List Nat} {m : ProjectRow}
    (hm : m ∈ s.modules) :
    neighbors (hypothetical id deps m.projectId
      ((s.ofProject m.projectId).map ProjectRow.toDependencyRow)) m.id =
      if m.id = id then deps else m.dependencies := by
  have hmap : hypothetical id deps m.projectId
      ((s.ofProject m.projectId).map ProjectRow.toDependencyRow) =
      (s.ofProject m.projectId).map fun r ↦ (r.id, if r.id = id then deps else r.dependencies) := by
    unfold hypothetical ModuleTable.ofProject
    rw [filter_map, filter_filter, map_map]
    simp only [Function.comp_def, ProjectRow.toDependencyRow, Bool.and_self]
    rfl
  have hmem : m ∈ s.ofProject m.projectId := mem_filter.mpr ⟨hm, beq_self_eq_true _⟩
  have hnodup : ((s.ofProject m.projectId).map ProjectRow.id).Nodup :=
    s.nodup.sublist (filter_sublist.map _)
  rw [neighbors, hmap, Assoc.lookup_map ProjectRow.id hnodup hmem]
  rfl

private theorem WellFormed.putDependencies (h : WellFormed s) {m : ProjectRow} {deps : List Nat}
    (hm : m ∈ s.modules) (hvalid : validateDependencies limit m.id deps m.projectId
      ((s.ofProject m.projectId).map ProjectRow.toDependencyRow) = .ok none) :
    WellFormed (s.putDependencies m.id deps) := by
  obtain ⟨hdeps, rank, hrank⟩ := validateDependencies_sound hvalid
  -- an edge of the new table is one of the search or an old one of another project
  have hedge : ∀ a b, DependsOn (s.putDependencies m.id deps) a b → ∃ r ∈ s.modules, r.id = a ∧
      (∃ r' ∈ s.modules, r'.id = b ∧ r'.projectId = r.projectId) ∧
      (r.projectId = m.projectId ∧ rank b < rank a ∨
        r.projectId ≠ m.projectId ∧ DependsOn s a b) := by
    rintro a b ⟨x, hx, rfl, hb⟩
    obtain ⟨r, hr, rfl⟩ := mem_putDependencies.mp hx
    by_cases hid : r.id = m.id
    · obtain rfl := row_unique hr hm hid
      rw [if_pos rfl] at hb ⊢
      have hlower := hrank r.id b (by rwa [neighbors_hypothetical hr, if_pos rfl])
      obtain ⟨row, hrow, rfl, hproject⟩ := hdeps b hb
      obtain ⟨r', hr', rfl⟩ := mem_map.mp hrow
      exact ⟨r, hr, rfl, ⟨r', (mem_filter.mp hr').1, rfl, hproject⟩, Or.inl ⟨rfl, hlower⟩⟩
    · rw [if_neg hid] at hb ⊢
      refine ⟨r, hr, rfl, h.existing r hr b hb, ?_⟩
      by_cases hproject : r.projectId = m.projectId
      · refine Or.inl ⟨hproject, hrank r.id b ?_⟩
        rwa [← hproject, neighbors_hypothetical hr, if_neg hid]
      · exact Or.inr ⟨hproject, r, hr, rfl, hb⟩
  constructor
  · intro x hx dep hdep
    obtain ⟨r, hr, hid, ⟨r', hr', rfl, hproject⟩, -⟩ := hedge x.id dep ⟨x, hx, rfl, hdep⟩
    obtain ⟨r₀, hr₀, rfl⟩ := mem_putDependencies.mp hx
    obtain rfl : r = r₀ := row_unique hr hr₀ (by rw [hid]; split <;> rfl)
    refine ⟨_, mem_putDependencies.mpr ⟨r', hr', rfl⟩, by split <;> rfl, ?_⟩
    split <;> split <;> exact hproject
  · intro id hcycle
    obtain ⟨a, ha, -⟩ := Relation.TransGen.head'_iff.mp hcycle
    obtain ⟨r, hr, rfl, -, -⟩ := hedge _ _ ha
    -- a cycle stays in the project where it begins
    have hclosed : ∀ a b, (∃ x ∈ s.modules, x.id = a ∧ x.projectId = r.projectId) →
        DependsOn (s.putDependencies m.id deps) a b →
        ∃ x ∈ s.modules, x.id = b ∧ x.projectId = r.projectId := by
      rintro a b ⟨x, hx, rfl, hproject⟩ hab
      obtain ⟨y, hy, hid, ⟨z, hz, hzb, hzy⟩, -⟩ := hedge _ _ hab
      obtain rfl := row_unique hy hx hid
      exact ⟨z, hz, hzb, hzy.trans hproject⟩
    have hstart : ∃ x ∈ s.modules, x.id = r.id ∧ x.projectId = r.projectId := ⟨r, hr, rfl, rfl⟩
    by_cases hsame : r.projectId = m.projectId
    · refine Rank.not_transGen_self rank hclosed ?_ hstart hcycle
      rintro a b ⟨x, hx, rfl, hproject⟩ hab
      obtain ⟨y, hy, hid, -, ⟨-, hlower⟩ | ⟨hother, -⟩⟩ := hedge _ _ hab
      · exact hlower
      · obtain rfl := row_unique hy hx hid
        exact absurd (hproject.trans hsame) hother
    · refine h.acyclic r.id (Rank.transGen_of_closed hclosed ?_ hstart hcycle)
      rintro a b ⟨x, hx, rfl, hproject⟩ hab
      obtain ⟨y, hy, hid, -, ⟨hother, -⟩ | ⟨-, hold⟩⟩ := hedge _ _ hab
      · obtain rfl := row_unique hy hx hid
        exact absurd (hproject.symm.trans hother) hsame
      · exact hold

private theorem WellFormed.delete_iff (h : WellFormed s) (id : Nat) :
    WellFormed (s.delete id) ↔ ∀ r ∈ s.modules, id ∉ r.dependencies := by
  have hmem : ∀ r, r ∈ (s.delete id).modules ↔ r ∈ s.modules ∧ r.id ≠ id := by
    intro r
    simp [ModuleTable.delete]
  constructor
  · intro hdelete r hr hdep
    by_cases hid : r.id = id
    · exact h.acyclic id (.single ⟨r, hr, hid, hdep⟩)
    · obtain ⟨m', hm', heq, -⟩ := hdelete.existing r ((hmem r).mpr ⟨hr, hid⟩) id hdep
      exact ((hmem m').mp hm').2 heq
  · intro hunlisted
    constructor
    · intro r hr dep hdep
      obtain ⟨m', hm', rfl, hproject⟩ := h.existing r ((hmem r).mp hr).1 dep hdep
      refine ⟨m', (hmem m').mpr ⟨hm', fun heq ↦ ?_⟩, rfl, hproject⟩
      exact hunlisted r ((hmem r).mp hr).1 (heq ▸ hdep)
    · intro id' hcycle
      have hedge : DependsOn (s.delete id) ≤ DependsOn s := by
        rintro a b ⟨r, hr, heq, hb⟩
        exact ⟨r, ((hmem r).mp hr).1, heq, hb⟩
      exact h.acyclic id' (Relation.TransGen.mono hedge _ _ hcycle)

private theorem step_wellFormed_iff (h : WellFormed s) {e : DependencyEvent}
    (hstep : dependencyStep library limit s e = some t) : WellFormed t ↔ Unreferenced s e := by
  cases e with
  | add projectId libraryId path order refused =>
    cases hstep
    refine iff_of_true ?_ trivial
    unfold addModule
    split
    · next hproject =>
      split
      · exact h
      · split
        · exact h
        · split
          · exact h
          · split
            · exact h
            · next entry _ _ _ _ deps hdetect =>
              refine h.insert rfl hproject fun dep hdep ↦ ?_
              obtain ⟨m, hm, rfl⟩ := detect_mem hdetect dep hdep
              obtain ⟨hm, hsame⟩ := mem_filter.mp hm
              exact ⟨m, hm, rfl, by simpa using hsame⟩
    · exact h
  | set id deps =>
    cases hstep
    refine iff_of_true ?_ trivial
    unfold setDependencies
    split
    · exact h
    · next m hget =>
      obtain ⟨hm, rfl⟩ := get?_eq_some hget
      split
      · exact h
      · exact h
      · next hvalid => exact h.putDependencies hm hvalid
  | remove id holder =>
    cases hstep
    unfold removeModule
    split
    · next hget =>
      -- a module that is not there is nobody's dependency
      refine iff_of_true h ?_
      cases holder with
      | some holder => trivial
      | none =>
        intro m hm hdep
        obtain ⟨m', hm', heq, -⟩ := h.existing m hm id hdep
        exact find?_eq_none.mp hget m' hm' (by simpa using heq)
    · next m hget =>
      obtain ⟨hm, rfl⟩ := get?_eq_some hget
      rw [if_pos (s.projects_mem m hm)]
      cases holder with
      | some holder => exact iff_of_true h trivial
      | none => exact h.delete_iff m.id

/-- From well-formed dependencies, a run goes through well-formed dependencies exactly when it
removes only modules that no module lists. -/
theorem dependencies_wellFormed_iff (library : Nat → Option LibraryEntry) (limit : Nat)
    (hs : WellFormed s) {es : List DependencyEvent}
    (hrun : Run (dependencyStep library limit) Free s es t) :
    Throughout (dependencyStep library limit) WellFormed s es ↔
      Run (dependencyStep library limit) Unreferenced s es t :=
  hrun.throughout_iff hs fun _ _ _ ha hstep ↦ step_wellFormed_iff ha hstep

def emptyProject : ModuleTable := ⟨[1], [], 1, nofun, .nil, nofun⟩

def clusterCatalog : Nat → Option LibraryEntry
  | 1 => some ⟨"vpc", "infra/aws/vpc", none⟩
  | 2 => some ⟨"eks", "infra/aws/eks", some [some "aws/vpc"]⟩
  | _ => none

private theorem emptyProject_wellFormed : WellFormed emptyProject := by
  refine ⟨nofun, fun id hcycle ↦ ?_⟩
  obtain ⟨_, ⟨m, hm, -⟩, -⟩ := Relation.TransGen.head'_iff.mp hcycle
  cases hm

/-- The network and the cluster are added, and both are removed again, the cluster first. -/
theorem dependencies_wellFormed_cluster :
    ∃ t, Run (dependencyStep clusterCatalog 1000) Unreferenced emptyProject
        [.add 1 1 "network" 0 none, .add 1 2 "cluster" 0 none, .set 2 [1], .remove 2 none,
          .remove 1 none] t ∧
      Throughout (dependencyStep clusterCatalog 1000) WellFormed emptyProject
        [.add 1 1 "network" 0 none, .add 1 2 "cluster" 0 none, .set 2 [1], .remove 2 none,
          .remove 1 none] := by
  refine ⟨_, Run.iff_exec.mpr rfl, ?_⟩
  exact (dependencies_wellFormed_iff clusterCatalog 1000 emptyProject_wellFormed
    (Run.free_iff_exec.mpr rfl)).mpr (Run.iff_exec.mpr rfl)

private theorem not_wellFormed_of_dangling
    (h : (s.modules.map fun m ↦ (m.id, m.dependencies)) = [(2, [1])]) : ¬ WellFormed s := by
  intro hs
  obtain ⟨m, hm, heq⟩ := map_eq_singleton_iff.mp h
  obtain ⟨hid, hdeps⟩ := Prod.mk.inj heq
  obtain ⟨m', hm', hid', -⟩ := hs.existing m (by rw [hm]; exact mem_singleton_self m) 1
    (by rw [hdeps]; exact mem_singleton_self 1)
  rw [hm, mem_singleton] at hm'
  rw [hm', hid] at hid'
  cases hid'

/-- The network is removed while the cluster depends on it. -/
theorem removed_dependency_dangles :
    ∃ t, exec (dependencyStep clusterCatalog 1000) emptyProject
        [.add 1 1 "network" 0 none, .add 1 2 "cluster" 0 none, .remove 1 none] = some t ∧
      (t.modules.map fun m ↦ (m.id, m.dependencies)) = [(2, [1])] ∧ ¬ WellFormed t := by
  have hrows : ∀ t, exec (dependencyStep clusterCatalog 1000) emptyProject
      [.add 1 1 "network" 0 none, .add 1 2 "cluster" 0 none, .remove 1 none] = some t →
      (t.modules.map fun m ↦ (m.id, m.dependencies)) = [(2, [1])] := by
    rintro t ⟨rfl⟩
    decide +kernel
  exact ⟨_, rfl, hrows _ rfl, not_wellFormed_of_dangling (hrows _ rfl)⟩

end

end BnkForge.Dependencies
