import BnkForge.Catalog.Versions

/-!
# Importing a manifest

`_import_pack_module` and `_inactivate_stale_manifest_modules`
(`backend/services/module_sync_service.py:1041–1202,1246–1322`) over the rows of `module_library`. The
canonical hash of a manifest is a parameter, and so is the row that `.first()` gives.
-/

namespace BnkForge.Catalog

open Python

/-! ### What an import reads -/

/-- `module_info`: a normalised manifest. -/
structure ModuleInfo where
  name : Option String
  category : Option String
  path : Option String
  provider : Option String
  description : Option String
  version : Option String
  moduleSourceKind : Option String
  executionEngine : Option String
  deployModel : Option String
  engineType : Option String
  packManifest : Value
  artifactReferences : Value
  inputsMetadata : Value
  variablesSchema : Value
  outputsMetadata : Value
  dependenciesMetadata : Value
  /-- `none` where the key is missing. -/
  tags : Option Value
  dependencies : Option Value

structure ModuleSource where
  id : Nat
  url : String
  gitRef : Option String
  branch : Option String

/-- `a or b` of texts. -/
def orText (a b : Option String) : Option String := (a.filter (· ≠ "")).or b

/-- `a or b` where `b` is a text. -/
def orElse (a : Option String) (b : String) : String := (a.filter (· ≠ "")).getD b

/-- What `.first()` gives of the rows that a query finds. -/
structure First where
  pick : List Row → Option Row
  mem : ∀ {rows r}, pick rows = some r → r ∈ rows
  eq_none : ∀ {rows}, pick rows = none → rows = []

def First.oldest : First where
  pick := List.head?
  mem := List.mem_of_head?
  eq_none := List.head?_eq_none_iff.mp

/-! ### What is derived -/

/-- The lower-case text without blanks around it, unless that is empty. -/
def normalized (text : String) : Option String :=
  let t := String.ofList (lower (strip text.toList))
  if t = "" then none else some t

/-- `_execution_engine_from_legacy_engine`. -/
def executionEngineFromLegacyEngine (engineType : Option String) : Option String :=
  (engineType.bind normalized).map fun t ↦ if t = "kubernetes" then "kubernetes-direct" else t

def deployModelOf (engine : String) : Option String :=
  if engine = "ansible" then some "ansible_playbook"
  else if engine = "script" then some "script"
  else if engine = "opentofu" then some "tofu_module"
  else none

/-- `_deploy_model_from_legacy_engine`. -/
def deployModelFromLegacyEngine (engineType : Option String) : Option String :=
  (engineType.bind normalized).bind deployModelOf

section

variable (repr : Value → String)

/-- `infer_deploy_model_from_pack_manifest` (`backend/services/module_metadata.py:1475–1498`). -/
def inferDeployModel (packManifest : Value) : Option String :=
  let pack := packManifest.get "deployment_pack"
  if pack.isDict then
    let engine := String.ofList
      (lower (strip ((((pack.get "engine").orElse (.str "")).toText repr).toList)))
    if engine = "kubernetes" then
      let entrypoints := pack.get "entrypoints"
      if (entrypoints.get "chart_path").isNonEmptyString ∨
        (entrypoints.get "chart_ref").isNonEmptyString then some "helm"
      else some "manifests"
    else deployModelOf engine
  else none

/-- `_derive_pack_deploy_model`. -/
def derivePackDeployModel (info : ModuleInfo) : Option String :=
  match info.deployModel.bind normalized with
  | some explicit => some explicit
  | none => (inferDeployModel repr info.packManifest).or (deployModelFromLegacyEngine info.engineType)

/-- `_guess_category`. -/
def guessCategory (path name : String) : String :=
  let within (text part : String) : Bool := contains (lower text.toList) part.toList
  if within path "infra" ∨ within name "vpc" ∨ within name "network" then "infra"
  else if within path "k8s" ∨ within path "kubernetes" ∨ within name "eks" then "k8s"
  else if within path "bnk" ∨ within name "f5" then "bnk"
  else "other"

/-- `_guess_provider`. -/
def guessProvider (path : String) : String :=
  let within (part : String) : Bool := contains (lower path.toList) part.toList
  if within "aws" then "aws"
  else if within "azure" then "azure"
  else if within "gcp" ∨ within "google" then "gcp"
  else "generic"

/-- `os.path.basename`. -/
def basename (path : String) : String := ((path.splitOn "/").getLast?).getD ""

/-- `_build_git_source`. -/
def buildGitSource (source : ModuleSource) (modulePath : String) : String :=
  if modulePath = "" then source.url else source.url ++ "//" ++ modulePath

/-- The row's columns after it has been updated in place; the hash freezes them. -/
def grandfathered (contentSha : String) (source : ModuleSource) (info : ModuleInfo)
    (modulePath : String) (r : Structural) : Structural where
  name := orElse info.name r.name
  path := orText info.path r.path
  category := orElse info.category r.category
  provider := orText info.provider r.provider
  description := orText info.description r.description
  version := orText info.version r.version
  tags := info.tags.getD (.list [])
  moduleSourceKind := some (orElse info.moduleSourceKind "git_catalog")
  executionEngine := orText info.executionEngine
    (orText (executionEngineFromLegacyEngine info.engineType) r.executionEngine)
  deployModel := orText (derivePackDeployModel repr info) r.deployModel
  engineType := info.engineType
  packManifest := info.packManifest
  artifactReferences := info.artifactReferences
  inputsMetadata := info.inputsMetadata
  variablesSchema := info.variablesSchema.orElse r.variablesSchema
  outputsMetadata := info.outputsMetadata
  dependenciesMetadata := info.dependenciesMetadata
  dependencies := info.dependencies.getD (.list [])
  moduleSourceId := some source.id
  sourcePath := some modulePath
  sourceVersion := orText source.gitRef source.branch
  gitSource := buildGitSource source modulePath
  isOfficial := false
  contentSha256 := some contentSha

/-- The columns of a new row. -/
def created (contentSha : String) (source : ModuleSource) (info : ModuleInfo) (modulePath : String) :
    Structural where
  name := orElse info.name (if modulePath = "" then "root" else basename modulePath)
  category := orElse info.category (guessCategory modulePath (info.name.getD ""))
  path := some (orElse info.path modulePath)
  provider := some (orElse info.provider (guessProvider modulePath))
  description := info.description
  gitSource := buildGitSource source modulePath
  version := info.version
  tags := info.tags.getD (.list [])
  moduleSourceKind := some (orElse info.moduleSourceKind "git_catalog")
  executionEngine := some (orElse info.executionEngine
    (orElse (executionEngineFromLegacyEngine info.engineType) "opentofu"))
  deployModel := derivePackDeployModel repr info
  engineType := info.engineType
  packManifest := info.packManifest
  artifactReferences := info.artifactReferences
  inputsMetadata := info.inputsMetadata
  variablesSchema := info.variablesSchema
  outputsMetadata := info.outputsMetadata
  dependenciesMetadata := info.dependenciesMetadata
  dependencies := info.dependencies.getD (.list [])
  moduleSourceId := some source.id
  sourcePath := some modulePath
  sourceVersion := orText source.gitRef source.branch
  isOfficial := false
  contentSha256 := some contentSha

end

/-! ### Importing -/

inductive IntegrityError
  | uniqueSourcePathVersion
  deriving DecidableEq, Repr

inductive ImportOutcome
  | created
  | updated
  | unchanged
  | conflict
  | skipped
  deriving DecidableEq, Repr

def Table.update (s : Table) (id : Nat) (f : Row → Row) (hid : ∀ r, (f r).id = r.id) : Table :=
  s.mapRows (fun r ↦ if r.id = id then f r else r) fun r ↦ by
    split
    · exact hid r
    · rfl

def Table.clashes (s : Table) (id : Nat) : Bool :=
  s.rows.any fun r ↦ r.id = id ∧ s.rows.any fun q ↦ q.id ≠ id ∧ r.moduleSourceId.isSome ∧
    r.path.isSome ∧ r.version.isSome ∧ q.place = r.place ∧ q.version = r.version

def Row.activate (r : Row) : Row := { r with isActive := true }

def Row.legacyVersionMatches (incoming : Option String) (r : Row) : Prop :=
  r.contentSha256 = none ∧ (r.version = incoming ∨ r.version = none)

instance (incoming : Option String) (r : Row) : Decidable (r.legacyVersionMatches incoming) :=
  inferInstanceAs (Decidable (_ ∧ _))

section

variable (first : First) (s : Table) (source : ModuleSource) (info : ModuleInfo) (modulePath : String)

def findExisting : Option Row :=
  let ofSource := s.rows.filter fun r ↦ r.moduleSourceId = some source.id
  (first.pick (ofSource.filter fun r ↦ r.sourcePath = some modulePath ∧ r.version = info.version)).or
    ((first.pick (ofSource.filter fun r ↦
      r.sourcePath = some modulePath ∧ r.legacyVersionMatches info.version)).or
      (first.pick (ofSource.filter fun r ↦
        r.path = some modulePath ∧ r.legacyVersionMatches info.version)))

/-- A row that is written by hand, and not by a sync. -/
def Row.isBuiltinSsh (r : Row) : Bool :=
  r.moduleSourceKind = some "builtin" ∧ r.executionEngine = some "ssh"

def ownedByBuiltin : Bool :=
  s.rows.any fun r ↦ r.path = some modulePath ∧ r.executionEngine = some "ssh" ∧
    r.gitSource.startsWith "builtin://"

variable (repr : Value → String) (contentSha : ModuleInfo → String)

/-- `_import_pack_module`. -/
def importPackModule : Except IntegrityError (Table × ImportOutcome) :=
  match findExisting first s source info modulePath with
  | some existing =>
    if existing.isBuiltinSsh then .ok (s, .skipped)
    else match existing.contentSha256 with
    | some stored =>
      let outcome := if stored = contentSha info then .unchanged else .conflict
      if existing.isActive then .ok (s, outcome)
      else
        let t := s.update existing.id Row.activate fun _ ↦ rfl
        .ok (recomputeIsLatest s t (some source.id) (orElse existing.path modulePath), outcome)
    | none =>
      let columns := grandfathered repr (contentSha info) source info modulePath existing.toStructural
      let t := s.update existing.id (fun r ↦ ⟨columns, r.id, true, r.isLatest⟩) fun _ ↦ rfl
      if t.clashes existing.id then .error .uniqueSourcePathVersion
      else .ok (recomputeIsLatest s t (some source.id) (orElse columns.path modulePath), .updated)
  | none =>
    if ownedByBuiltin s modulePath then .ok (s, .skipped)
    else
      let columns := created repr (contentSha info) source info modulePath
      let t := s.insert columns true true
      if t.clashes s.nextId then .error .uniqueSourcePathVersion
      -- the new row is flushed before the flags are recomputed
      else .ok (recomputeIsLatest t t (some source.id) (orElse columns.path modulePath), .created)

end

/-! ### Inactivating what is gone -/

structure ProjectPin where
  projectId : Nat
  projectName : String
  moduleLibraryId : Nat

/-- The warning about a row that is deactivated under projects. -/
structure PinnedWarning where
  moduleId : Nat
  path : Option String
  version : Option String
  pinnedBy : List (Nat × String)
  message : String

/-- `_is_manifest_backed_module`. -/
def Row.isManifestBacked (r : Row) : Bool :=
  (r.engineType.filter (· ≠ "")).isSome || r.packManifest.isDict && !r.packManifest.items.isEmpty

def Row.isStale (sourceId : Nat) (discovered : List String) (r : Row) : Bool :=
  r.moduleSourceId = some sourceId && r.isActive && r.isManifestBacked &&
    !discovered.contains (r.sourcePath.getD (r.path.getD ""))

def printed (text : Option String) : String := text.getD "None"

def pinnedWarning (pins : List ProjectPin) (r : Row) : Option PinnedWarning :=
  let pinning := ((pins.filter fun p ↦ p.moduleLibraryId = r.id).map fun p ↦
    (p.projectId, p.projectName)).dedup
  if pinning = [] then none
  else some {
    moduleId := r.id
    path := r.path
    version := r.version
    pinnedBy := pinning
    message := "Deactivated " ++ printed r.path ++ "@" ++ printed r.version ++
      ": no longer published by the source but still pinned by " ++ toString pinning.length ++
      " project(s). Existing deployments keep working; the version is hidden from catalog and re-pin " ++
      "surfaces. Re-publish it, or change those modules' version." }

def Row.stalePath (r : Row) : Option String := r.path.filter (· ≠ "")

/-- The rows of a source whose manifests were not found again are deactivated. -/
def Table.deactivateStale (s : Table) (sourceId : Nat) (discovered : List String) : Table :=
  s.mapRows (fun r ↦ if r.isStale sourceId discovered then r.deactivate else r) fun r ↦ by
    split <;> rfl

/-- `stale_paths`. -/
def Table.stalePaths (s : Table) (sourceId : Nat) (discovered : List String) : List String :=
  ((s.rows.filter (Row.isStale sourceId discovered)).filterMap Row.stalePath).dedup

/-- `_inactivate_stale_manifest_modules`. -/
def inactivateStaleManifestModules (s : Table) (pins : List ProjectPin) (sourceId : Nat)
    (discovered : List String) : Table × Nat × List PinnedWarning :=
  let stale := s.rows.filter (Row.isStale sourceId discovered)
  ((s.stalePaths sourceId discovered).foldl
    (fun t path ↦ recomputeIsLatest s t (some sourceId) path) (s.deactivateStale sourceId discovered),
    stale.length, stale.filterMap (pinnedWarning pins))

end BnkForge.Catalog
