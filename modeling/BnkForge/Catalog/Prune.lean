import BnkForge.Catalog.Versions
import Mathlib.Data.List.Dedup
import Mathlib.Data.List.Sort

/-!
# Pruning superseded versions

`backend/services/catalog_prune_service.py`: which versions of a source are kept, deactivated and deleted,
for modules (`:170–272`) and for blueprints (`:275–362`). How many rows reference a version is a
parameter, since a prune writes none of them.
-/

namespace BnkForge.Catalog

/-! ### The plan -/

/-- What a prune reads of a row. The identity is the path, or the id of the blueprint. -/
structure Version where
  id : Nat
  identity : Option String
  version : Option String
  isActive : Bool
  deriving DecidableEq, Repr

namespace Version

def name (v : Version) : String := v.identity.getD ""

def key (v : Version) : SortKey ×ₗ Nat := toLex (versionSortKey v.version, v.id)

/-- The first is not older than the second. -/
def NotOlder (v w : Version) : Prop := w.key ≤ v.key

instance decidableNotOlder (v w : Version) : Decidable (NotOlder v w) :=
  inferInstanceAs (Decidable (w.key ≤ v.key))

instance notOlder_trans : IsTrans Version NotOlder := ⟨fun _ _ _ h h' ↦ h'.trans h⟩

instance notOlder_total : Std.Total NotOlder := ⟨fun v w ↦ le_total w.key v.key⟩

def deactivate (v : Version) : Version := { v with isActive := false }

end Version

inductive PruneAction
  | kept
  | deactivated
  | deleted
  | inUse
  deriving DecidableEq, Repr

structure PruneItem where
  identity : String
  version : String
  action : PruneAction
  reason : String
  deriving DecidableEq, Repr

/-- What the real run does to a row. -/
inductive PruneEffect
  | nothing
  | deactivate
  | delete
  deriving DecidableEq, Repr

/-- What is reported of a row and what is done to it. The path is touched where its flags are recomputed
afterwards. -/
structure Decision where
  row : Version
  item : PruneItem
  effect : PruneEffect
  touches : Bool
  deriving DecidableEq, Repr

/-- The arguments of a prune, and what it says about references. -/
structure PruneRequest where
  keep : Nat
  delete : Bool
  dryRun : Bool
  includeInUse : Bool

/-- `_ordered`: newest first. -/
def ordered (rows : List Version) : List Version := rows.insertionSort Version.NotOlder

/-- `_SPARED_REASON`. -/
def sparedReason : String :=
  "last active version for this group; pruning it would remove the entry from the catalog entirely"

section

variable (refs : Nat → Nat) (pinned : String) (q : PruneRequest)

/-- A row that is left as it is although it is a candidate, because it is in use. -/
def leftInUse (v : Version) : Bool := refs v.id != 0 && !q.includeInUse

/-- `_spare_last_active`. -/
def spareLastActive (kept candidates : List Version) : Option Version :=
  if kept.any Version.isActive || candidates.any fun v ↦ v.isActive && leftInUse refs q v then none
  else candidates.find? Version.isActive

def keptDecision (v : Version) : Decision :=
  ⟨v, ⟨v.name, v.version.getD "", .kept, ""⟩, .nothing, false⟩

/-- One round of the loop over the candidates of a path. -/
def candidateDecision (spared : Option Version) (v : Version) : Decision :=
  let item (action : PruneAction) (reason : String) : PruneItem :=
    ⟨v.name, v.version.getD "", action, reason⟩
  let refsText := toString (refs v.id)
  if spared.any fun r ↦ r.id == v.id then ⟨v, item .kept sparedReason, .nothing, true⟩
  else if leftInUse refs q v then
    ⟨v, item .inUse (refsText ++ " " ++ pinned ++ "; left untouched"), .nothing, false⟩
  else if refs v.id ≠ 0 then
    ⟨v, item .deactivated (refsText ++ " " ++ pinned ++ "; hidden, not deleted"),
      if v.isActive then .deactivate else .nothing, v.isActive⟩
  else if q.delete then ⟨v, item .deleted "", .delete, true⟩
  else if v.isActive then ⟨v, item .deactivated "", .deactivate, true⟩
  else ⟨v, item .kept "already inactive", .nothing, false⟩

def group (rows : List Version) (name : String) : List Version :=
  ordered (rows.filter fun v ↦ v.name = name)

def keptOf (rows : List Version) (name : String) : List Version := (group rows name).take q.keep

def candidatesOf (rows : List Version) (name : String) : List Version :=
  (group rows name).drop q.keep

def sparedOf (rows : List Version) (name : String) : Option Version :=
  spareLastActive refs q (keptOf q rows name) (candidatesOf q rows name)

def planGroup (rows : List Version) (name : String) : List Decision :=
  (keptOf q rows name).map keptDecision ++
    (candidatesOf q rows name).map (candidateDecision refs pinned q (sparedOf refs q rows name))

def firstSeen (texts : List String) : List String := texts.reverse.dedup.reverse

def plan (rows : List Version) : List Decision :=
  (firstSeen (rows.map Version.name)).flatMap (planGroup refs pinned q rows)

def touchedPaths (plan : List Decision) : List String :=
  firstSeen ((plan.filter Decision.touches).map fun d ↦ d.row.name)

def effectOn (plan : List Decision) (id : Nat) : PruneEffect :=
  ((plan.find? fun d ↦ d.row.id == id).map Decision.effect).getD .nothing

end

/-! ### Modules -/

structure PruneResult where
  sourceId : Nat
  dryRun : Bool
  keep : Nat
  items : List PruneItem
  deriving DecidableEq, Repr

inductive PruneError
  | notFound (resource : String) (id : Nat)
  | internal (message : String)
  deriving DecidableEq, Repr

def Row.toVersion (r : Row) : Version := ⟨r.id, r.path, r.version, r.isActive⟩

section

variable (refs : Nat → Nat) (q : PruneRequest)

/-- `_assert_no_project_modules`, where a row is deleted. -/
def assertNoProjectModules (d : Decision) : Except PruneError Unit :=
  if d.effect = .delete ∧ refs d.row.id ≠ 0 then
    .error (.internal ("Refusing to delete module version " ++ d.row.identity.getD "None" ++ "@" ++
      d.row.version.getD "None" ++ ": " ++ toString (refs d.row.id) ++ " project module(s) reference it. " ++
      "Deleting would cascade and remove them."))
  else .ok ()

def Table.retire (s : Table) (plan : List Decision) : Table :=
  (s.mapRows (fun r ↦ if effectOn plan r.id = .deactivate then r.deactivate else r)
    fun r ↦ by split <;> rfl).keep fun r ↦ effectOn plan r.id ≠ .delete

def Table.versionsOf (s : Table) (sourceId : Nat) : List Version :=
  (s.rows.filter fun r ↦ r.moduleSourceId = some sourceId).map Row.toVersion

def modulePlan (s : Table) (sourceId : Nat) : List Decision :=
  plan refs "project module(s) pinned to it" q (s.versionsOf sourceId)

/-- `prune_module_source`. -/
def pruneModuleSource (sources : List Nat) (s : Table) (sourceId : Nat) :
    Except PruneError (Table × PruneResult) := do
  if sourceId ∉ sources then throw (.notFound "module_source" sourceId)
  let plan := modulePlan refs q s sourceId
  let result : PruneResult := ⟨sourceId, q.dryRun, q.keep, plan.map Decision.item⟩
  if q.dryRun then return (s, result)
  plan.forM (assertNoProjectModules refs)
  return ((touchedPaths plan).foldl (fun t path ↦ recomputeIsLatest t t (some sourceId) path)
    (s.retire plan), result)

end

/-! ### Blueprints -/

/-- A row of `blueprint_releases`. -/
structure BlueprintRelease where
  id : Nat
  blueprintSourceId : Nat
  blueprintId : String
  blueprintVersion : String
  isActive : Bool
  deriving DecidableEq, Repr

def BlueprintRelease.deactivate (r : BlueprintRelease) : BlueprintRelease := { r with isActive := false }

@[ext] structure BlueprintTable where
  rows : List BlueprintRelease
  ids : (rows.map BlueprintRelease.id).Nodup

def BlueprintRelease.toVersion (r : BlueprintRelease) : Version :=
  ⟨r.id, some r.blueprintId, some r.blueprintVersion, r.isActive⟩

section

variable (refs : Nat → Nat) (q : PruneRequest)

/-- `_assert_no_stack_instances`, where a release is deleted. -/
def assertNoStackInstances (d : Decision) : Except PruneError Unit :=
  if d.effect = .delete ∧ refs d.row.id ≠ 0 then
    .error (.internal ("Refusing to delete blueprint release " ++ d.row.identity.getD "None" ++ "@" ++
      d.row.version.getD "None" ++ ": " ++ toString (refs d.row.id) ++ " stack instance(s) were deployed from " ++
      "it. Deleting would null their provenance."))
  else .ok ()

def BlueprintTable.retire (s : BlueprintTable) (plan : List Decision) : BlueprintTable where
  rows := (s.rows.map fun r ↦
    if effectOn plan r.id = .deactivate then r.deactivate else r).filter
      fun r ↦ effectOn plan r.id ≠ .delete
  ids := by
    refine List.Nodup.sublist (List.filter_sublist.map _) ?_
    rw [List.map_map]
    refine (List.map_congr_left fun r _ ↦ ?_) ▸ s.ids
    rw [Function.comp_apply]
    split <;> rfl

def BlueprintTable.versionsOf (s : BlueprintTable) (sourceId : Nat) : List Version :=
  (s.rows.filter fun r ↦ r.blueprintSourceId = sourceId).map BlueprintRelease.toVersion

def blueprintPlan (s : BlueprintTable) (sourceId : Nat) : List Decision :=
  plan refs "stack instance(s) deployed from it" q (s.versionsOf sourceId)

/-- `prune_blueprint_source`. -/
def pruneBlueprintSource (sources : List Nat) (s : BlueprintTable) (sourceId : Nat) :
    Except PruneError (BlueprintTable × PruneResult) := do
  if sourceId ∉ sources then throw (.notFound "blueprint_source" sourceId)
  let plan := blueprintPlan refs q s sourceId
  let result : PruneResult := ⟨sourceId, q.dryRun, q.keep, plan.map Decision.item⟩
  if q.dryRun then return (s, result)
  plan.forM (assertNoStackInstances refs)
  return (s.retire plan, result)

end

end BnkForge.Catalog
