import BnkForge.Lib.PythonValue

/-!
# Artifact manifests

`validate_artifact_manifest` (`backend/services/module_metadata.py:471–985`) and
`canonical_step_sets` (`:401–419`) over the parsed `bnkforge.artifact.json`. The allowlist of
registry hosts is the test whether it has a host.
-/

namespace BnkForge.Container

open Python

/-! ### Constants and errors -/

/-- What the validation raises: `InvalidMetadataSchemaError`, or the `TypeError` of looking up a
list or a dict in a set. -/
inductive MetadataError
  | invalid (message : String)
  | unhashable
  deriving DecidableEq, Repr

/-- The keys of `ARTIFACT_KINDS`. -/
inductive ArtifactKind
  | containerImage
  | helmChart
  | manifest
  deriving DecidableEq, Repr

namespace ArtifactKind

def block : ArtifactKind → String
  | containerImage => "container_image"
  | helmChart => "helm_chart"
  | manifest => "manifest"

def engine : ArtifactKind → String
  | containerImage => "container"
  | helmChart => "kubernetes"
  | manifest => "kubernetes"

/-- `kind in PROCEDURAL_ARTIFACT_KINDS`. -/
def procedural (kind : ArtifactKind) : Bool := kind = containerImage

def ofName (name : String) : Option ArtifactKind :=
  [containerImage, helmChart, manifest].find? fun kind ↦ kind.block == name

end ArtifactKind

/-- `ARTIFACT_STEP_DENYLIST_KEYS`. -/
def stepDenylistKeys : List String :=
  ["shell", "sh", "bash", "command", "script", "image", "entrypoint"]

/-- `ARTIFACT_STEP_SHELL_TOKENS`. -/
def stepShellTokens : List String :=
  ["sh", "bash", "/bin/sh", "/bin/bash", "/usr/bin/sh", "/usr/bin/bash"]

/-- `ARTIFACT_ACTION_RESERVED_NAMES`. -/
def actionReservedNames : List String := ["init", "plan", "apply", "destroy"]

/-- `ARTIFACT_ACTION_RATINGS`. -/
def actionRatings : List String := ["green", "amber"]

/-- `ARTIFACT_DISALLOWED_SECRET_KEYS`. -/
def disallowedSecretKeys : List String :=
  ["value", "secret", "secret_value", "token", "password", "passphrase", "private_key",
    "key_material", "api_key"]

/-! ### Texts -/

/-- `text.strip()`. -/
def stripped (text : String) : String := String.ofList (strip text.toList)

/-- `text.strip().lower()`. -/
def folded (text : String) : String := String.ofList (lower (strip text.toList))

/-- `_DIGEST_RE.match(text)`, for a text without a line break at its end. -/
def isDigest (text : String) : Bool :=
  let cs := text.toList
  "sha256:".toList.isPrefixOf cs && cs.length == 71 &&
    (cs.drop 7).all fun c ↦ c.isDigit || ('a' ≤ c && c ≤ 'f')

/-- `ARTIFACT_ACTION_NAME_RE.match(text)`; the pattern allows a line break at the end. -/
def isActionName (text : String) : Bool :=
  let cs := text.toList
  let name := if cs.getLast? = some '\n' then cs.dropLast else cs
  1 ≤ name.length && name.length ≤ 64 && name.all fun c ↦ c.isLower || c.isDigit || c == '-'

/-! ### Checks -/

/-- `if not condition: raise InvalidMetadataSchemaError(message)`. -/
def require (condition : Bool) (message : String) : Except MetadataError Unit :=
  if condition then .ok () else .error (.invalid message)

def each {α : Type} (check : α → Except MetadataError Unit) : List α → Except MetadataError Unit
  | [] => .ok ()
  | x :: xs => do
    check x
    each check xs

def indexed {α : Type} (xs : List α) : List (Nat × α) := xs.zipIdx.map fun p ↦ (p.2, p.1)

def elements : Value → List Value
  | .list items => items
  | _ => []

/-- `value in set`, for a set of texts. -/
def memberOf (value : Value) (names : List String) : Except MetadataError Bool :=
  match value with
  | .str s => .ok (names.contains s)
  | .list _ => .error .unhashable
  | .dict _ => .error .unhashable
  | _ => .ok false

/-! ### The validation -/

/-- `canonical_step_sets`. -/
def canonicalStepSets (manifest : Value) : List (String × Value) :=
  let execution := manifest.get "execution"
  if execution.isDict && (execution.get "steps").isDict then (execution.get "steps").items
  else (manifest.get "steps").items

structure References where
  root : String
  nodes : List String
  edges : List (String × String)
  deriving DecidableEq, Repr

section Validation

variable (repr : Value → String)

/-- `_validate_artifact_top_level`. -/
def validateTopLevel (manifest : Value) : Except MetadataError ArtifactKind := do
  require manifest.isDict "bnkforge.artifact.json must be an object"
  require (manifest.get "schema_version").isOne ("Invalid schema_version '" ++
    (manifest.get "schema_version").toText repr ++ "'. Must be 1")
  each (fun field ↦ require (manifest.get field).isNonEmptyString
    ("Missing or invalid required field '" ++ field ++ "'")) ["name", "version"]
  match manifest.get "kind" with
  | .str name =>
    match ArtifactKind.ofName name with
    | some kind => .ok kind
    | none => .error (.invalid ("Invalid kind '" ++ name ++
        "'. Must be one of: container_image, helm_chart, manifest"))
  | .list _ => .error .unhashable
  | .dict _ => .error .unhashable
  | kind => .error (.invalid ("Invalid kind '" ++ kind.toText repr ++
      "'. Must be one of: container_image, helm_chart, manifest"))

/-- `_validate_artifact_typed_block`. -/
def validateTypedBlock (manifest : Value) (kind : ArtifactKind) : Except MetadataError Unit := do
  require (manifest.get kind.block).isDict
    ("kind '" ++ kind.block ++ "' requires a '" ++ kind.block ++ "' object block")
  match (manifest.get kind.block).get "digest" with
  | .str digest => do
    require (Value.str digest).isNonEmptyString
      (kind.block ++ ".digest is required (immutable sha256 digest)")
    require (isDigest (stripped digest))
      (kind.block ++ ".digest must be a pinned 'sha256:<64 hex>' digest, not a floating tag")
  | _ => .error (.invalid (kind.block ++ ".digest is required (immutable sha256 digest)"))

/-- `_validate_artifact_registry_host`. -/
def validateRegistryHost (manifest : Value) (kind : ArtifactKind)
    (allowlist : Option (String → Bool)) : Except MetadataError Unit :=
  match (manifest.get kind.block).get "registry_host" with
  | .str host => do
    require (Value.str host).isNonEmptyString (kind.block ++ ".registry_host is required")
    match allowlist with
    | none => .ok ()
    | some allowed =>
      require (allowed host) (kind.block ++ ".registry_host '" ++ host ++
        "' is not in the configured registry host allowlist")
  | _ => .error (.invalid (kind.block ++ ".registry_host is required"))

/-- `_validate_artifact_lifecycle`. -/
def validateLifecycle (manifest : Value) : Except MetadataError Unit :=
  match manifest.get "lifecycle" with
  | .none => .ok ()
  | .dict items => each (fun item ↦ require item.2.isBool
      ("lifecycle." ++ item.1 ++ " must be a boolean")) items
  | _ => .error (.invalid "'lifecycle' must be an object")

/-- `_validate_artifact_step`. -/
def validateStep (path : String) (step : Value) : Except MetadataError Unit := do
  require step.isDict (path ++ " must be an object")
  each (fun item ↦ require (!stepDenylistKeys.contains item.1)
    (path ++ " must not contain '" ++ item.1 ++ "' — steps run the artifact's own image via argv only " ++
      "(no shell, no command-string, no image override)")) step.items
  let argv := elements (step.get "args")
  require ((step.get "args").isList && !argv.isEmpty)
    (path ++ ".args must be a non-empty argv list invoking the artifact's own image")
  each (fun token ↦ require token.isStr (path ++ ".args entries must be strings")) argv
  let first := match argv.head? with
    | some (.str token) => token
    | _ => ""
  require (!stepShellTokens.contains (folded first))
    (path ++ ".args must not invoke a shell ('" ++ first ++
      "') — argv runs in the artifact's own image directly")
  each (fun key ↦ require (!(step.get key).isNonEmptyString)
    (path ++ " must not reference another image via '" ++ key ++ "'")) ["ref", "from", "uses"]

/-- `_validate_artifact_step_list`. -/
def validateStepList (phase : String) (steps : Value) : Except MetadataError Unit := do
  require (steps.isList && !(elements steps).isEmpty)
    ("steps." ++ phase ++ " must be a non-empty list for a procedural artifact")
  each (fun step ↦ validateStep ("steps." ++ phase ++ "[" ++ toString step.1 ++ "]") step.2)
    (indexed (elements steps))

/-- `_validate_artifact_steps`. -/
def validateSteps (manifest : Value) (kind : ArtifactKind) : Except MetadataError Unit := do
  let execution := manifest.get "execution"
  let hasExecutionSteps := execution.isDict && (execution.get "steps").isDict
  require (!(hasExecutionSteps && (manifest.get "steps").isDict))
    ("lifecycle steps are declared in both 'steps' and 'execution.steps'; declare exactly one — " ++
      "the engine executes 'execution.steps' and a second set would never run while still being " ++
      "what a reviewer reads")
  let declared := hasExecutionSteps || (manifest.get "steps").isDict
  let steps := Value.dict (canonicalStepSets manifest)
  if kind.procedural then do
    require declared ("kind '" ++ kind.block ++ "' requires a 'steps' object")
    validateStepList "apply" (steps.get "apply")
    if ((manifest.get "lifecycle").get "supports_destroy").truthy ||
        !(steps.get "destroy").isNone then
      validateStepList "destroy" (steps.get "destroy")
    each (fun item ↦ if item.1 = "apply" ∨ item.1 = "destroy" then .ok ()
      else validateStepList item.1 item.2) steps.items
  else
    require (!declared)
      ("kind '" ++ kind.block ++ "' is declarative and must not declare 'steps'")

/-- `validate_workspace_relative_path`: the normalized path. -/
def validateRelativePath (value field : String) : Except MetadataError (List Char) := do
  let candidate := strip value.toList
  require (!candidate.isEmpty) (field ++ " must be a non-empty path")
  require (!(['/'].isPrefixOf candidate || ['~'].isPrefixOf candidate))
    (field ++ " '" ++ value ++ "' must be workspace-relative, not absolute")
  require (!candidate.contains (Char.ofNat 0)) (field ++ " contains a null byte")
  let normalized := normpath candidate
  require (!(normalized == ['.', '.'] || ['.', '.', '/'].isPrefixOf normalized ||
      ['/'].isPrefixOf normalized))
    (field ++ " '" ++ value ++ "' escapes the workspace (path traversal)")
  .ok normalized

/-- The entries of `secret_files`, with the paths seen so far. -/
def validateSecretEntries (seen : List (List Char)) :
    List Value → Except MetadataError (List (List Char))
  | [] => .ok seen
  | entry :: entries => do
    require entry.isDict "each secret_files entry must be an object"
    match entry.get "secret_name" with
    | .str secretName => do
      require (Value.str secretName).isNonEmptyString
        "secret_files[].secret_name is required (a project secret name)"
      match entry.get "path" with
      | .str path => do
        require (Value.str path).isNonEmptyString
          ("secret_files[].path is required for secret '" ++ secretName ++ "'")
        let normalized ← validateRelativePath path ("secret_files[" ++ secretName ++ "].path")
        require (!seen.contains normalized)
          ("secret_files[].path '" ++ path ++ "' is declared more than once")
        validateSecretEntries (seen ++ [normalized]) entries
      | _ => .error (.invalid ("secret_files[].path is required for secret '" ++ secretName ++ "'"))
    | _ => .error (.invalid "secret_files[].secret_name is required (a project secret name)")

def bareSegment (segments : List (List Char)) : Bool → List Value → Option (List Char)
  | _, [] => none
  | previousWasFlag, .str token :: tokens =>
    let bare := strip token.toList
    if ['-'].isPrefixOf bare then bareSegment segments (!bare.contains '=') tokens
    else if previousWasFlag then bareSegment segments false tokens
    else if bare.isEmpty || bare.contains '/' || !segments.contains bare then
      bareSegment segments false tokens
    else some bare
  | _, _ :: tokens => bareSegment segments false tokens

/-- The step-sets that `_reject_secret_file_step_collisions` goes through, with their names. -/
def allStepSets (manifest : Value) : List (String × Value) :=
  canonicalStepSets manifest ++ (manifest.get "actions").items.filterMap fun item ↦
    if item.2.isDict then some ("actions." ++ item.1, item.2.get "steps") else none

/-- `_reject_secret_file_step_collisions`. -/
def rejectCollisions (manifest : Value) (paths : List (List Char)) : Except MetadataError Unit :=
  let segments := ((paths.filter fun p ↦ p != ['.']).map fun p ↦ ((p.splitOn '/').headD [])).filter
    fun segment ↦ !segment.isEmpty
  each (fun set ↦ each (fun step ↦
      match bareSegment segments false (elements (step.get "args")) with
      | none => .ok ()
      | some bare => .error (.invalid ("secret_files[].path starts with '" ++ String.ofList bare ++
          "', which step '" ++ ((step.get "name").orElse (.str "<unnamed>")).toText repr ++
          "' (steps." ++ set.1 ++ ") also passes as a bare argument. Materializing the secret " ++
          "creates that directory before the step runs, so the step will fail with an 'already " ++
          "exists' error that no retry can clear. Give the secret a different parent directory, " ++
          "or have the step adopt an existing one.")))
    ((elements set.2).filter Value.isDict)) (allStepSets manifest)

/-- `_validate_artifact_secret_files`. -/
def validateSecretFiles (manifest : Value) (kind : ArtifactKind) : Except MetadataError Unit :=
  match manifest.get "secret_files" with
  | .none => .ok ()
  | secretFiles => do
    require kind.procedural
      ("kind '" ++ kind.block ++ "' has no run workspace and must not declare 'secret_files'")
    require secretFiles.isList "'secret_files' must be a list"
    let paths ← validateSecretEntries [] (elements secretFiles)
    rejectCollisions repr manifest paths

/-- `_validate_action_inputs`. -/
def validateActionInputs (name : String) (inputs : Value) : Except MetadataError Unit :=
  match inputs with
  | .none => .ok ()
  | .list inputs => each (fun input ↦ do
      let path := "actions." ++ name ++ ".inputs[" ++ toString input.1 ++ "]"
      require input.2.isDict (path ++ " must be an object")
      each (fun field ↦ require (input.2.get field).isNonEmptyString
        (path ++ " missing or invalid '" ++ field ++ "'")) ["name", "type"]) (indexed inputs)
  | _ => .error (.invalid ("actions." ++ name ++ ".inputs must be a list"))

/-- An action of `_validate_artifact_actions`. -/
def validateAction (name : String) (definition : Value) : Except MetadataError Unit := do
  require (isActionName name) ("Invalid action name '" ++ name ++ "'. Must match [a-z0-9-]\x7b1,64\x7d")
  require (!actionReservedNames.contains name)
    ("Action name '" ++ name ++ "' collides with a lifecycle phase")
  require definition.isDict ("actions." ++ name ++ " must be an object")
  require (definition.get "title").isNonEmptyString
    ("actions." ++ name ++ ".title is required and must be a non-empty string")
  let description := definition.get "description"
  require (description.isNone || description.isStr)
    ("actions." ++ name ++ ".description must be a string")
  let rating := definition.get "rating"
  if !rating.isNone then do
    let known ← memberOf rating actionRatings
    require known ("Invalid actions." ++ name ++ ".rating '" ++ rating.toText repr ++
      "'. Must be one of: amber, green")
  let steps := definition.get "steps"
  require (steps.isList && !(elements steps).isEmpty)
    ("actions." ++ name ++ ".steps must be a non-empty list")
  each (fun step ↦ validateStep ("actions." ++ name ++ ".steps[" ++ toString step.1 ++ "]") step.2)
    (indexed (elements steps))
  validateActionInputs name (definition.get "inputs")

/-- `_validate_artifact_actions`. -/
def validateActions (manifest : Value) (kind : ArtifactKind) : Except MetadataError Unit :=
  match manifest.get "actions" with
  | .none => .ok ()
  | actions => do
    require actions.isDict "'actions' must be an object mapping action names to definitions"
    require kind.procedural
      ("kind '" ++ kind.block ++ "' is declarative and must not declare 'actions'")
    each (fun item ↦ validateAction repr item.1 item.2) actions.items

/-- `_validate_artifact_reports`. -/
def validateReports (manifest : Value) (kind : ArtifactKind) : Except MetadataError Unit :=
  match manifest.get "reports" with
  | .none => .ok ()
  | reports => do
    require kind.procedural
      ("kind '" ++ kind.block ++ "' has no run workspace and must not declare 'reports'")
    require reports.isDict "'reports' must be an object"
    match reports.get "dir" with
    | .str dir => do
      let candidate := strip dir.toList
      require (!candidate.isEmpty) "reports.dir is required (a non-empty workspace-relative path)"
      require (!(['/'].isPrefixOf candidate || ['~'].isPrefixOf candidate ||
          candidate.contains (Char.ofNat 0)))
        ("reports.dir '" ++ dir ++ "' must be workspace-relative, not absolute")
      require (!((candidate.map fun c ↦ if c = '\\' then '/' else c).splitOn '/').contains ['.', '.'])
        ("reports.dir '" ++ dir ++ "' escapes the workspace (path traversal)")
    | _ => .error (.invalid "reports.dir is required (a non-empty workspace-relative path)")

/-- `_reject_embedded_secrets`, with the levels of nesting that are still allowed. -/
def rejectEmbeddedSecrets : Nat → String → Value → Except MetadataError Unit
  | 0, path, _ => .error (.invalid (path ++ " nesting is too deep"))
  | depth + 1, path, .dict items => each (fun item ↦ do
      require (!(disallowedSecretKeys.contains (folded item.1) && item.2.isNonEmptyString))
        (path ++ "." ++ item.1 ++ " must not contain an embedded secret value")
      rejectEmbeddedSecrets depth (path ++ "." ++ item.1) item.2) items
  | depth + 1, path, .list items => each (fun item ↦
      rejectEmbeddedSecrets depth (path ++ "[" ++ toString item.1 ++ "]") item.2) (indexed items)
  | _ + 1, _, _ => .ok ()

/-- `dict[key] = value`. -/
def setItem (v : Value) (key : String) (value : Value) : Value :=
  if v.items.any fun item ↦ item.1 == key then
    .dict (v.items.map fun item ↦ if item.1 = key then (key, value) else item)
  else .dict (v.items ++ [(key, value)])

/-- `_normalize_artifact_execution_engine`: the manifest with its execution engine. -/
def normalizeEngine (manifest : Value) (kind : ArtifactKind) : Except MetadataError Value :=
  match manifest.get "execution" with
  | .none => .ok (setItem manifest "execution" (.dict [("engine", .str kind.engine)]))
  | .dict items =>
    match (Value.dict items).get "engine" with
    | .none =>
      .ok (setItem manifest "execution" (setItem (.dict items) "engine" (.str kind.engine)))
    | engine => do
      require engine.isNonEmptyString "execution.engine must be a non-empty string"
      .ok manifest
  | _ => .error (.invalid "'execution' must be an object")

def referenceTarget (idx : Nat) : Value → Except MetadataError String
  | .str ref => .ok (stripped ref)
  | .dict items =>
    let ref := (((Value.dict items).get "ref").orElse ((Value.dict items).get "name")).orElse (.str "")
    .ok (stripped (ref.toText repr))
  | _ => .error (.invalid ("references[" ++ toString idx ++ "] must be a string or object"))

def resolveFrom (selfId name : String) (known : Option (List String)) (graph : References) :
    List (Nat × Value) → Except MetadataError References
  | [] => .ok graph
  | (idx, ref) :: refs => do
    let target ← referenceTarget repr idx ref
    let path := "references[" ++ toString idx ++ "]"
    require (target != "") (path ++ " is empty")
    require (!(target == selfId || target == name))
      (path ++ " '" ++ target ++ "' is a self-reference (cycle)")
    require (known.all fun refs ↦ refs.contains target)
      (path ++ " '" ++ target ++ "' does not resolve to a known artifact")
    resolveFrom selfId name known { graph with
      nodes := if graph.nodes.contains target then graph.nodes else graph.nodes ++ [target]
      edges := graph.edges ++ [(selfId, target)] } refs

/-- `_resolve_artifact_references`. -/
def resolveReferences (manifest : Value) (known : Option (List String)) :
    Except MetadataError References := do
  let selfId := (manifest.get "name").toText repr ++ "@" ++ (manifest.get "version").toText repr
  let references := manifest.get "references"
  require (references.isNone || references.isList) "'references' must be a list"
  resolveFrom repr selfId (((manifest.get "name").orElse (.str "")).toText repr) known
    ⟨selfId, [selfId], []⟩ (indexed (elements references))

/-- `validate_artifact_manifest`: the manifest as the validation leaves it, and its references. -/
def validateArtifactManifest (allowlist : Option (String → Bool)) (known : Option (List String))
    (manifest : Value) : Except MetadataError (Value × References) := do
  let kind ← validateTopLevel repr manifest
  validateTypedBlock manifest kind
  validateRegistryHost manifest kind allowlist
  validateLifecycle manifest
  validateSteps manifest kind
  validateSecretFiles repr manifest kind
  validateActions repr manifest kind
  validateReports manifest kind
  rejectEmbeddedSecrets 13 "$" manifest
  let normalized ← normalizeEngine manifest kind
  let references ← resolveReferences repr normalized known
  .ok (normalized, references)

end Validation

end BnkForge.Container
