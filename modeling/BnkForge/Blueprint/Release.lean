import BnkForge.Graph.Order
import BnkForge.Service.Dependencies

/-!
# The modules of a blueprint release

`_resolve_library_module` and `_create_release_modules`
(`backend/services/imported_blueprint_service.py:55–114,509–599`) with `update_module` and
`calculate_deployment_order` (`backend/services/project_module_service.py:250–304,573–685`), over the
rows of `project_modules`. The variables are left out: a call has the refusal of its variables,
where there is one.
-/

namespace BnkForge.Blueprint

open BnkForge.Dependencies BnkForge.Graph

/-! ### The catalog and the manifest -/

/-- A row of `module_library`; `dependencies` are names of modules. -/
structure LibraryModule extends LibraryEntry where
  id : Nat
  version : Option String
  isActive : Bool
  isLatest : Bool
  contentSha256 : Option String
  dependencies : List String
  deriving DecidableEq, Repr

structure ModuleDef where
  id : String
  module : String
  version : Option String
  optional : Bool
  dependsOn : List String
  deriving DecidableEq, Repr

/-- `str.strip` of a text. -/
def stripped (text : String) : String := String.ofList (Python.strip text.toList)

/-- `module_ref`. -/
def ModuleDef.moduleRef (d : ModuleDef) : String := stripped d.module

/-- `_pinned_version`. -/
def ModuleDef.pinnedVersion (d : ModuleDef) : Option String :=
  (d.version.map stripped).filter (· ≠ "")

/-- The first row by `is_latest` and `id`, both descending. -/
def newest (rows : List LibraryModule) : Option LibraryModule :=
  rows.foldl (fun best m ↦
    match best with
    | none => some m
    | some b =>
      if (m.isLatest && !b.isLatest) || (m.isLatest == b.isLatest && b.id < m.id) then some m
      else some b) none

/-- `_resolve_library_module`. -/
def resolveLibraryModule (catalog : List LibraryModule) (d : ModuleDef) : Option LibraryModule :=
  let rows := catalog.filter fun m ↦ m.path == d.moduleRef && m.isActive
  match d.pinnedVersion with
  | none => newest rows
  | some version =>
    match newest (rows.filter fun m ↦ m.version == some version) with
    | some m => some m
    -- a path without hashed rows is resolved as before there were versions
    | none =>
      if rows.any fun m ↦ m.contentSha256.isSome then none
      else newest (rows.filter fun m ↦ m.contentSha256.isNone)

def entryOf (catalog : List LibraryModule) (id : Nat) : Option LibraryEntry :=
  (catalog.find? fun m ↦ m.id == id).map LibraryModule.toLibraryEntry

/-! ### The table -/

/-- The rows with two more columns: who is enabled, and the `dependencies` of the catalog entry. -/
structure ReleaseTable where
  table : ModuleTable
  enabled : Nat → Bool
  names : Nat → List String

inductive ReleaseError
  | call (e : DependencyError)
  /-- `Failed to calculate order: ...`. -/
  | internalError
  deriving DecidableEq, Repr

def ReleaseTable.mapRows (s : ReleaseTable) (f : ProjectRow → ProjectRow) (hid : ∀ m, (f m).id = m.id)
    (hproject : ∀ m, (f m).projectId = m.projectId) : ReleaseTable where
  table := {
    projects := s.table.projects
    modules := s.table.modules.map f
    nextId := s.table.nextId
    ids_lt r hr := by
      obtain ⟨m, hm, rfl⟩ := List.mem_map.mp hr
      rw [hid]
      exact s.table.ids_lt m hm
    nodup := by
      rw [List.map_map]
      exact (List.map_congr_left fun m _ ↦ hid m) ▸ s.table.nodup
    projects_mem r hr := by
      obtain ⟨m, hm, rfl⟩ := List.mem_map.mp hr
      rw [hproject]
      exact s.table.projects_mem m hm }
  enabled := s.enabled
  names := s.names

def withDependencies (assigned : List (Nat × List Nat)) (m : ProjectRow) : ProjectRow :=
  { m with dependencies := (assigned.lookup m.id).getD m.dependencies }

def withOrder (orders : List (Nat × Nat)) (m : ProjectRow) : ProjectRow :=
  { m with deploymentOrder := ((orders.lookup m.id).map Int.ofNat).getD m.deploymentOrder }

def withGivenOrder (moduleId : Nat) (order : Option Int) (m : ProjectRow) : ProjectRow :=
  if m.id = moduleId then { m with deploymentOrder := order.getD m.deploymentOrder } else m

section

variable {assigned : List (Nat × List Nat)} {orders : List (Nat × Nat)} {moduleId : Nat}
  {order : Option Int} (m : ProjectRow)

@[simp] theorem withDependencies_id : (withDependencies assigned m).id = m.id := rfl
@[simp] theorem withDependencies_projectId : (withDependencies assigned m).projectId = m.projectId := rfl
@[simp] theorem withOrder_id : (withOrder orders m).id = m.id := rfl
@[simp] theorem withOrder_projectId : (withOrder orders m).projectId = m.projectId := rfl
@[simp] theorem withOrder_dependencies : (withOrder orders m).dependencies = m.dependencies := rfl

@[simp] theorem withGivenOrder_id : (withGivenOrder moduleId order m).id = m.id := by
  unfold withGivenOrder
  split <;> rfl

@[simp] theorem withGivenOrder_projectId :
    (withGivenOrder moduleId order m).projectId = m.projectId := by
  unfold withGivenOrder
  split <;> rfl

@[simp] theorem withGivenOrder_dependencies :
    (withGivenOrder moduleId order m).dependencies = m.dependencies := by
  unfold withGivenOrder
  split <;> rfl

end

def ReleaseTable.enabledOf (s : ReleaseTable) (projectId : Nat) : List ProjectRow :=
  (s.table.ofProject projectId).filter fun m ↦ s.enabled m.id

def ReleaseTable.edges (s : ReleaseTable) (id : Nat) : Finset Nat :=
  ((s.table.get? id).elim [] ProjectRow.dependencies).toFinset

/-! ### The deployment order of a project -/

/-- `module_name_to_id`: a later row takes over the name of an earlier one. -/
def moduleNameToId (rows : List ProjectRow) (name : String) : Option Nat :=
  (rows.reverse.find? fun m ↦ m.library.any fun entry ↦ entry.name == name).map ProjectRow.id

def resolvedDependencies (names : List String) (rows : List ProjectRow) (id : Nat)
    (entry : LibraryEntry) : Except DependencyError (List Nat) :=
  match detectModuleDependencies entry (rows.filter fun m ↦ m.id != id) with
  | .error e => .error e
  | .ok detected =>
    if entry.required.isSome ∨ detected ≠ [] then .ok detected
    else .ok ((names.filterMap (moduleNameToId rows)).filter (· != id))

/-- The dependencies that are assigned to modules in turn, up to the first error. -/
def assignments (names : Nat → List String) (rows : List ProjectRow) :
    List ProjectRow → List (Nat × List Nat) × Option DependencyError
  | [] => ([], none)
  | m :: ms =>
    match m.library with
    | none => assignments names rows ms
    | some entry =>
      match resolvedDependencies (names m.id) rows m.id entry with
      | .error e => ([], some e)
      | .ok deps =>
        let rest := assignments names rows ms
        ((m.id, deps) :: rest.1, rest.2)

/-- The text of the `CircularDependencyError`. -/
def circularText : SortError → String
  | .search _ => ""
  | .circular cycle =>
    "Circular dependency detected: " ++ " -> ".intercalate (cycle.map toString)
  | .circularDuringSort => "Circular dependency detected during sort"

def namedText (rows : List ProjectRow) (text : String) : String :=
  String.ofList (rows.foldl (fun text m ↦
    match m.library with
    | none => text
    | some entry =>
      Python.replace (toString m.id).toList (entry.name ++ "(" ++ toString m.id ++ ")").toList text)
    text.toList)

def sortFailure (rows : List ProjectRow) : SortError → ReleaseError
  | .search _ => .internalError
  | e => .call (.badRequest ("Circular dependency detected in module metadata: " ++
      namedText rows (circularText e) ++ ". Please check the module library definitions - " ++
      "these dependencies are defined in the modules themselves, not set by you."))

def ReleaseTable.sortProject (limit : Nat) (set : SetOrder) (projectId : Nat) (s : ReleaseTable) :
    ReleaseTable × Option ReleaseError :=
  let enabled := s.enabledOf projectId
  match Graph.calculateDeploymentOrder limit set (enabled.map fun m ↦ (m.id, m.dependencies)) with
  | .error e => (s, some (sortFailure (s.table.ofProject projectId) e))
  | .ok orders =>
    (s.mapRows (withOrder orders) withOrder_id withOrder_projectId,
      -- the answer reads the name of the entry of every enabled module
      if enabled.any (·.library.isNone) then some .internalError else none)

/-- `calculate_deployment_order` of the service. -/
def ReleaseTable.calculateDeploymentOrder (limit : Nat) (set : SetOrder) (projectId : Nat)
    (useExistingDependencies : Bool) (s : ReleaseTable) : ReleaseTable × Option ReleaseError :=
  if projectId ∉ s.table.projects then (s, some (.call (.notFound "project" projectId)))
  else if s.table.ofProject projectId = [] then (s, none)
  else if useExistingDependencies then s.sortProject limit set projectId
  else
    let enabled := s.enabledOf projectId
    let resolved := assignments s.names enabled enabled
    let t := s.mapRows (withDependencies resolved.1) withDependencies_id withDependencies_projectId
    match resolved.2 with
    | some e => (t, some (.call e))
    | none => t.sortProject limit set projectId

/-! ### Creating the modules of a release -/

section

variable (limit : Nat) (set : SetOrder) (catalog : List LibraryModule)
  (refused : ModuleDef → Option String) (release projectId : Nat)

/-- `path_in_project`. -/
def pathInProject (release : Nat) (d : ModuleDef) : String :=
  "imported-blueprint/" ++ toString release ++ "/" ++ d.moduleRef

/-- `add_module` for a module of the manifest. -/
def addReleaseModule (s : ReleaseTable) (m : LibraryModule) (d : ModuleDef) (order : Int) :
    Except DependencyError ReleaseTable :=
  match addModule (entryOf catalog) projectId m.id (pathInProject release d) order (refused d)
      s.table with
  | (_, some e) => .error e
  | (table, none) => .ok {
      table := table
      enabled := Function.update s.enabled s.table.nextId (!d.optional)
      names := Function.update s.names s.table.nextId m.dependencies }

/-- The modules of the manifest are added; `created` is `module_id_by_blueprint_id`, the newest first. -/
def addReleaseModules (order : Int) (s : ReleaseTable) (created : List (String × Nat)) :
    List ModuleDef → Except DependencyError (ReleaseTable × List (String × Nat))
  | [] => .ok (s, created)
  | d :: ds =>
    match resolveLibraryModule catalog d with
    | none => addReleaseModules (order + 1) s created ds
    | some m =>
      match addReleaseModule catalog refused release projectId s m d order with
      | .error e => .error e
      | .ok t => addReleaseModules (order + 1) t ((d.id, s.table.nextId) :: created) ds

/-- `dependency_ids`. -/
def dependencyIds (created : List (String × Nat)) (d : ModuleDef) : List Nat :=
  d.dependsOn.filterMap fun dep ↦ created.lookup dep

def setReleaseDependencies (created : List (String × Nat)) (s : ReleaseTable) :
    List ModuleDef → Except DependencyError ReleaseTable
  | [] => .ok s
  | d :: ds =>
    match created.lookup d.id with
    | none => setReleaseDependencies created s ds
    | some id =>
      if dependencyIds created d = [] then setReleaseDependencies created s ds
      else
        match setDependencies limit id (dependencyIds created d) s.table with
        | (_, some e) => .error e
        | (table, none) => setReleaseDependencies created { s with table := table } ds

/-- `order_offset`. -/
def orderOffset (s : ReleaseTable) (projectId : Nat) : Int :=
  (((s.table.ofProject projectId).map ProjectRow.deploymentOrder).max?.map (· + 1)).getD 0

/-- `_create_release_modules`: the rows, and the ids of the created modules by their ids in the
manifest, the newest first. -/
def createReleaseModules (defs : List ModuleDef) (s : ReleaseTable) :
    Except ReleaseError (ReleaseTable × List (String × Nat)) :=
  match addReleaseModules catalog refused release projectId (orderOffset s projectId) s [] defs with
  | .error e => .error (.call e)
  | .ok (added, created) =>
    match setReleaseDependencies limit created added defs with
    | .error e => .error (.call e)
    | .ok wired =>
      match wired.calculateDeploymentOrder limit set projectId true with
      | (_, some e) => .error e
      | (t, none) => .ok (t, created)

end

/-! ### Updating a module -/

/-- The arguments of `update_module`; `refused` is the refusal of the variables. -/
structure ModuleUpdate where
  moduleId : Nat
  refused : Option String
  deploymentOrder : Option Int
  enabled : Option Bool
  deriving DecidableEq, Repr

/-- The columns that the caller gives. -/
def ReleaseTable.changed (s : ReleaseTable) (u : ModuleUpdate) : ReleaseTable :=
  let t := s.mapRows (withGivenOrder u.moduleId u.deploymentOrder) withGivenOrder_id
    withGivenOrder_projectId
  { t with enabled := Function.update s.enabled u.moduleId (u.enabled.getD (s.enabled u.moduleId)) }

def enablingModule (s : ReleaseTable) (u : ModuleUpdate) (m : ProjectRow) : Bool :=
  u.enabled == some true && !s.enabled u.moduleId && m.library.isSome

/-- `update_module`; what the calculation of the order raises is caught. -/
def updateModule (limit : Nat) (set : SetOrder) (s : ReleaseTable) (u : ModuleUpdate) :
    ReleaseTable × Option DependencyError :=
  match s.table.get? u.moduleId with
  | none => (s, some (.notFound "module" u.moduleId))
  | some m =>
    match u.refused with
    | some errors => (s, some (.badRequest ("Variable validation failed: " ++ errors)))
    | none =>
      if enablingModule s u m then
        (((s.changed u).calculateDeploymentOrder limit set m.projectId false).1, none)
      else (s.changed u, none)

def updateStep (limit : Nat) (set : SetOrder) (s : ReleaseTable) (u : ModuleUpdate) :
    Option ReleaseTable :=
  some (updateModule limit set s u).1

end BnkForge.Blueprint
