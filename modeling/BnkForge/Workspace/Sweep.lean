import BnkForge.Lib.PythonInt

/-!
# The sweep of orphaned workspaces

Which directories below `BASE_PATH` the modules keep their state in
(`backend/services/workspace_manager.py:77–142`, `backend/tasks/container_tasks.py:150–163`) and
which ones `get_orphaned_workspaces` reports (`:941–1015`). The sweep decides by the names of the
directories: a module's own workspace is named by its id, a shared workspace of a blueprint
deployment by its release, and the cache of a stack by `blueprint-` and its id.
-/

namespace BnkForge.Workspace

open List

structure ModuleColumns where
  id : Nat
  projectId : Nat
  pathInProject : Option String
  deriving DecidableEq, Repr

structure Database where
  projects : List Nat
  modules : List ModuleColumns

/-- A path below `BASE_PATH`, as the names on it; no name holds a slash. -/
abbrev Path := List String

/-! ### Names -/

/-- `get_workspace_path`. -/
def getWorkspacePath (m : ModuleColumns) : Path := [toString m.projectId, toString m.id]

/-- `_deployment_group`. -/
def deploymentGroup (m : ModuleColumns) : Option String :=
  match ((m.pathInProject.getD "").toList.splitOn '/').map String.ofList with
  | root :: release :: _ =>
    if root = "imported-blueprint" ∧ release ≠ "" then some ("bp-" ++ release) else none
  | _ => none

/-- `artifact_workspace_key`. -/
def artifactWorkspaceKey (m : ModuleColumns) (scope : Option String) : String :=
  if scope = some "deployment" then (deploymentGroup m).getD (toString m.id) else toString m.id

/-- `artifact_workspace_path`. -/
def artifactWorkspacePath (projectId : Nat) (key : String) : Path := [toString projectId, key]

/-! ### The sweep -/

/-- A name in a directory listing and whether it is a directory. -/
structure Entry where
  name : String
  isDir : Bool
  deriving DecidableEq, Repr

/-- A name in the listing of `BASE_PATH`, with its own listing if it is a directory. -/
structure ProjectEntry where
  name : String
  isDir : Bool
  entries : List Entry
  deriving DecidableEq, Repr

/-- The listing of `BASE_PATH`, empty also where it does not exist. -/
abbrev Listing := List ProjectEntry

/-- Whether the sweep reports a directory of the existing project `projectId`. -/
def orphanedEntry (db : Database) (projectId : Int) (e : Entry) : Bool :=
  if !e.isDir then false
  else if "blueprint-".toList.isPrefixOf e.name.toList then false
  else
    match Python.int e.name with
    | none => true
    | some id => !(db.modules.any fun m ↦ (m.projectId : Int) == projectId && (m.id : Int) == id)

/-- What the sweep reports of one name in `BASE_PATH`. -/
def orphanedIn (db : Database) (d : ProjectEntry) : List Path :=
  if !d.isDir then []
  else
    match Python.int d.name with
    | none => [[d.name]]
    | some projectId =>
      if db.projects.any fun p ↦ (p : Int) == projectId then
        (d.entries.filter (orphanedEntry db projectId)).map fun e ↦ [d.name, e.name]
      else [[d.name]]

/-- `get_orphaned_workspaces`. -/
def getOrphanedWorkspaces (db : Database) (listing : Listing) : List Path :=
  listing.flatMap (orphanedIn db)

/-- `cleanup_orphaned_workspaces`: the listing after every reported tree is removed. -/
def cleanupOrphanedWorkspaces (db : Database) (listing : Listing) : Listing :=
  let orphaned := getOrphanedWorkspaces db listing
  (listing.filter fun d ↦ !orphaned.contains [d.name]).map fun d ↦
    { d with entries := d.entries.filter fun e ↦ !orphaned.contains [d.name, e.name] }

/-- The path is that of a directory in the directory of a project. -/
def HasWorkspace (listing : Listing) (p : Path) : Prop :=
  ∃ d ∈ listing, d.isDir = true ∧ ∃ e ∈ d.entries, e.isDir = true ∧ p = [d.name, e.name]

def Spared (db : Database) (listing : Listing) (p : Path) : Prop :=
  p ∉ getOrphanedWorkspaces db listing ∧
    (HasWorkspace listing p → HasWorkspace (cleanupOrphanedWorkspaces db listing) p)

section

variable {db : Database} {listing : Listing} {m : ModuleColumns} {key : String}

private theorem mem_getOrphanedWorkspaces {p : Path} :
    p ∈ getOrphanedWorkspaces db listing ↔ ∃ d ∈ listing, p ∈ orphanedIn db d :=
  mem_flatMap

private theorem orphanedIn_of_project {d : ProjectEntry} (hname : d.name = toString m.projectId)
    (hproject : m.projectId ∈ db.projects) (hdir : d.isDir = true) :
    orphanedIn db d =
      (d.entries.filter (orphanedEntry db m.projectId)).map fun e ↦ [d.name, e.name] := by
  have hany : (db.projects.any fun p ↦ (p : Int) == (m.projectId : Int)) = true :=
    any_eq_true.mpr ⟨m.projectId, hproject, beq_self_eq_true _⟩
  simp only [orphanedIn, hdir, hname, Python.int_toString, hany, Bool.not_true, if_true]
  rfl

private theorem head_of_mem_orphanedIn {d : ProjectEntry} {p : Path} (hp : p ∈ orphanedIn db d) :
    d.isDir = true ∧ p.head? = some d.name := by
  unfold orphanedIn at hp
  split at hp
  · cases hp
  · next hdir =>
    refine ⟨by simpa using hdir, ?_⟩
    split at hp
    · rw [mem_singleton.mp hp]
      rfl
    · split at hp
      · obtain ⟨e, -, rfl⟩ := mem_map.mp hp
        rfl
      · rw [mem_singleton.mp hp]
        rfl

private theorem mem_iff_of_project {p : Path} (hproject : m.projectId ∈ db.projects)
    (hhead : p.head? = some (toString m.projectId)) :
    p ∈ getOrphanedWorkspaces db listing ↔
      ∃ d ∈ listing, d.isDir = true ∧ ∃ e ∈ d.entries,
        orphanedEntry db m.projectId e = true ∧ p = [d.name, e.name] := by
  rw [mem_getOrphanedWorkspaces]
  constructor
  · rintro ⟨d, hd, hp⟩
    obtain ⟨hdir, hname⟩ := head_of_mem_orphanedIn hp
    have hname : d.name = toString m.projectId := Option.some.inj (hname.symm.trans hhead)
    rw [orphanedIn_of_project hname hproject hdir] at hp
    obtain ⟨e, he, rfl⟩ := mem_map.mp hp
    obtain ⟨he, horphaned⟩ := mem_filter.mp he
    exact ⟨d, hd, hdir, e, he, horphaned, rfl⟩
  · rintro ⟨d, hd, hdir, e, he, horphaned, rfl⟩
    refine ⟨d, hd, ?_⟩
    rw [orphanedIn_of_project (Option.some.inj hhead) hproject hdir]
    exact mem_map_of_mem (mem_filter.mpr ⟨he, horphaned⟩)

private theorem project_notMem (hproject : m.projectId ∈ db.projects) :
    [toString m.projectId] ∉ getOrphanedWorkspaces db listing := by
  rw [mem_iff_of_project hproject rfl]
  rintro ⟨d, -, -, e, -, -, heq⟩
  injection heq with _ heq
  cases heq

private theorem workspace_mem_iff (hproject : m.projectId ∈ db.projects) :
    [toString m.projectId, key] ∈ getOrphanedWorkspaces db listing ↔
      HasWorkspace listing [toString m.projectId, key] ∧
        orphanedEntry db m.projectId ⟨key, true⟩ = true := by
  have hentry : ∀ e : Entry, orphanedEntry db m.projectId e = true → e = ⟨e.name, true⟩ := by
    intro e he
    cases e with
    | mk name isDir =>
      cases isDir with
      | true => rfl
      | false => cases he
  rw [mem_iff_of_project hproject rfl]
  constructor
  · rintro ⟨d, hd, hdir, e, he, horphaned, heq⟩
    have hkey : key = e.name := by
      injection heq with _ heq
      injection heq
    have hisDir := congrArg Entry.isDir (hentry e horphaned)
    refine ⟨⟨d, hd, hdir, e, he, hisDir, heq⟩, ?_⟩
    rw [hkey, ← hentry e horphaned]
    exact horphaned
  · rintro ⟨⟨d, hd, hdir, e, he, hisDir, heq⟩, horphaned⟩
    have hkey : key = e.name := by
      injection heq with _ heq
      injection heq
    refine ⟨d, hd, hdir, e, he, ?_, heq⟩
    cases e with
    | mk name isDir =>
      cases hisDir
      cases hkey
      exact horphaned

private theorem spared_iff (hproject : m.projectId ∈ db.projects) :
    Spared db listing [toString m.projectId, key] ↔
      [toString m.projectId, key] ∉ getOrphanedWorkspaces db listing := by
  refine ⟨And.left, fun hnot ↦ ⟨hnot, ?_⟩⟩
  rintro ⟨d, hd, hdir, e, he, hisDir, heq⟩
  have hname : toString m.projectId = d.name := by injection heq
  have hproj : [toString m.projectId] ∉ getOrphanedWorkspaces db listing := project_notMem hproject
  rw [hname] at hproj
  rw [heq] at hnot
  refine ⟨_, mem_map_of_mem (mem_filter.mpr ⟨hd, ?_⟩), hdir, e, ?_, hisDir, heq⟩
  · simpa using hproj
  · exact mem_filter.mpr ⟨he, by simpa using hnot⟩

private theorem orphanedEntry_id (hm : m ∈ db.modules) :
    orphanedEntry db m.projectId ⟨toString m.id, true⟩ = false := by
  have hany : (db.modules.any fun k ↦
      (k.projectId : Int) == (m.projectId : Int) && (k.id : Int) == (m.id : Int)) = true :=
    any_eq_true.mpr ⟨m, hm, by simp⟩
  unfold orphanedEntry
  split
  · rfl
  · split
    · rfl
    · simp only [Python.int_toString, hany]
      rfl

private theorem orphanedEntry_group {group : String} (hgroup : deploymentGroup m = some group)
    (projectId : Int) : orphanedEntry db projectId ⟨group, true⟩ = true := by
  obtain ⟨release, rfl⟩ : ∃ release, group = "bp-" ++ release := by
    unfold deploymentGroup at hgroup
    split at hgroup
    · next release _ _ =>
      obtain ⟨-, heq⟩ := Option.ite_none_right_eq_some.mp hgroup
      exact ⟨release, (Option.some.inj heq).symm⟩
    · cases hgroup
  have hlist : ("bp-" ++ release).toList = 'b' :: 'p' :: '-' :: release.toList := by
    rw [String.toList_append]
    rfl
  have hint : Python.int ("bp-" ++ release) = none :=
    Python.int_eq_none hlist (by decide) (by decide) (by decide)
  have hprefix : "blueprint-".toList.isPrefixOf ("bp-" ++ release).toList = false := by
    rw [hlist]
    rfl
  simp only [orphanedEntry, hint, hprefix]
  rfl

end

/-- The sweep spares both workspaces of an existing module of an existing project exactly where
the module keeps no state in the shared workspace of a deployment: its scope is not
`deployment`, or it belongs to no deployment, or the shared directory is not there yet. -/
theorem sweep_spares_iff (db : Database) (listing : Listing) (m : ModuleColumns)
    (scope : Option String) (hm : m ∈ db.modules) (hproject : m.projectId ∈ db.projects) :
    (Spared db listing (artifactWorkspacePath m.projectId (artifactWorkspaceKey m scope)) ∧
        Spared db listing (getWorkspacePath m)) ↔
      ∀ group, scope = some "deployment" → deploymentGroup m = some group →
        ¬ HasWorkspace listing (artifactWorkspacePath m.projectId group) := by
  have hown : Spared db listing (getWorkspacePath m) := by
    refine (spared_iff hproject).mpr fun hmem ↦ ?_
    have horphaned := ((workspace_mem_iff hproject).mp hmem).2
    rw [orphanedEntry_id hm] at horphaned
    cases horphaned
  rw [and_iff_left hown]
  by_cases hscope : scope = some "deployment"
  · cases hgroup : deploymentGroup m with
    | none =>
      rw [artifactWorkspaceKey, if_pos hscope, hgroup]
      exact iff_of_true hown (fun _ _ h ↦ nomatch h)
    | some group =>
      rw [artifactWorkspaceKey, if_pos hscope, hgroup, Option.getD_some, artifactWorkspacePath,
        spared_iff hproject, workspace_mem_iff hproject, orphanedEntry_group hgroup]
      simp [hscope, artifactWorkspacePath]
  · rw [artifactWorkspaceKey, if_neg hscope]
    exact iff_of_true hown (fun _ h ↦ absurd h hscope)

/-- A module of a blueprint deployment whose state is its own. -/
theorem sweep_spares_component :
    Spared ⟨[1], [⟨4, 1, some "imported-blueprint/7/cluster"⟩]⟩
        [⟨"1", true, [⟨"4", true⟩, ⟨"blueprint-2", true⟩, ⟨"9", true⟩]⟩]
        (artifactWorkspacePath 1 (artifactWorkspaceKey
          ⟨4, 1, some "imported-blueprint/7/cluster"⟩ (some "component"))) ∧
      getOrphanedWorkspaces ⟨[1], [⟨4, 1, some "imported-blueprint/7/cluster"⟩]⟩
        [⟨"1", true, [⟨"4", true⟩, ⟨"blueprint-2", true⟩, ⟨"9", true⟩]⟩] = [["1", "9"]] := by
  refine ⟨((sweep_spares_iff _ _ ⟨4, 1, some "imported-blueprint/7/cluster"⟩ (some "component")
    (by decide) (by decide)).mpr ?_).1, ?_⟩
  · intro group hscope
    exact absurd hscope (by decide)
  · decide

/-- The workspace that the modules of the release 7 share is reported as orphaned. -/
theorem sweep_reports_shared :
    ¬ ∀ (db : Database) (listing : Listing) (m : ModuleColumns) (scope : Option String),
      m ∈ db.modules → m.projectId ∈ db.projects →
        Spared db listing (artifactWorkspacePath m.projectId (artifactWorkspaceKey m scope)) ∧
          Spared db listing (getWorkspacePath m) := by
  intro h
  have hspared := (h ⟨[1], [⟨4, 1, some "imported-blueprint/7/cluster"⟩]⟩
    [⟨"1", true, [⟨"bp-7", true⟩]⟩] ⟨4, 1, some "imported-blueprint/7/cluster"⟩ (some "deployment")
    (by decide) (by decide)).1.1
  exact hspared (by decide)

end BnkForge.Workspace
