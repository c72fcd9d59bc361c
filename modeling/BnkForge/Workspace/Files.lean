import Mathlib.Data.String.Basic

/-!
# The persistent workspace of a module

`backend/services/workspace_manager.py:519–900` and the source refresh of
`backend/services/execution/opentofu_runtime.py:987–1080`. A workspace is the set of files
those checks look at; `plan.out` and `terraform.tfvars.json` are represented by the
variable assignment they were made from. The assignment type and the serialisers are
parameters. Sources are taken not to ship `.terraform/` or Forge's own files.
-/

namespace BnkForge.Workspace

/-! ### Text -/

/-- Python's `str.isspace` on one character. -/
def isSpace (c : Char) : Bool :=
  c.val ∈ [0x09, 0x0a, 0x0b, 0x0c, 0x0d, 0x1c, 0x1d, 0x1e, 0x1f, 0x20, 0x85, 0xa0, 0x1680,
    0x2028, 0x2029, 0x202f, 0x205f, 0x3000] || (0x2000 ≤ c.val && c.val ≤ 0x200a)

/-- Python's `str.strip()`. -/
def strip (text : String) : String :=
  String.ofList (((text.toList.dropWhile isSpace).reverse.dropWhile isSpace).reverse)

/-! ### Settings and files -/

/-- What `compute_vars_hash` reads of a project secret. -/
structure SecretMeta where
  name : String
  encryptedValue : String
  updatedAt : String
  deriving DecidableEq, Repr

/-- What users and catalog syncs edit: the assignment `build_variables` assembles, the
project's secrets and backend settings, and the library module's version and source. -/
structure Settings (A : Type) where
  assignment : A
  secrets : List SecretMeta
  /-- `backend_config` as JSON text. -/
  backend : String
  /-- `library_module.version`, empty when unset. -/
  version : String
  sourceKind : String
  /-- The names of the `.tf` files of the source. -/
  sourceFiles : List String
  /-- The names of the `.tf` files that the configuration writers generate. -/
  generatedFiles : List String
  /-- The source ships a provider lock file. -/
  sourceLockFile : Bool
  deriving DecidableEq

structure Files (A : Type) where
  /-- `workspace_path` is set and the directory exists. -/
  created : Bool
  tfFiles : List String
  terraformDir : Bool
  /-- `.terraform/modules`. -/
  modulesDir : Bool
  /-- `.terraform.lock.hcl`. -/
  lockFile : Bool
  /-- `.bnk_init_version`. -/
  initVersion : Option String
  /-- `.bnk_backend_hash`. -/
  backendHash : Option String
  /-- The assignment in `terraform.tfvars.json`. -/
  tfvars : Option A
  /-- The assignment `plan.out` was computed from. -/
  planOut : Option A
  deriving DecidableEq

/-- A module that no engine task has touched. -/
def Files.empty {A : Type} : Files A :=
  ⟨false, [], false, false, false, none, none, none, none⟩

/-- SHA-256 and the JSON serialisers of the hashed data. -/
structure Serializer (A : Type) where
  sha256 : String → String
  dumps : A → String
  dumpSecrets : List SecretMeta → String

/-- The assumptions on the serialisers: SHA-256 is injective, and a JSON object text says
itself where it ends. -/
structure Serializer.Faithful {A : Type} (S : Serializer A) : Prop where
  sha256_injective : Function.Injective S.sha256
  dumps_delimited : ∀ a b x y, S.dumps a ++ x = S.dumps b ++ y → a = b

variable {A : Type} (S : Serializer A)

/-! ### Checks -/

/-- `secret_hash_input`. -/
def secretHashInput (secrets : List SecretMeta) : String :=
  if secrets.isEmpty then "" else S.dumpSecrets secrets

/-- `compute_vars_hash`; `backend/services/workspace_manager.py:787`. -/
def computeVarsHash (c : Settings A) : String :=
  S.sha256 (S.dumps c.assignment ++ secretHashInput S c.secrets)

/-- `_compute_backend_hash`. -/
def computeBackendHash (c : Settings A) : String := S.sha256 c.backend

/-- `is_initialized`. -/
def isInitialized (w : Files A) : Bool := w.created && w.terraformDir && w.lockFile

/-- The version check of `needs_reinit`. -/
def versionChanged (c : Settings A) (w : Files A) : Option String :=
  if c.version = "" then none
  else
    match w.initVersion with
    | some text =>
      if strip text = c.version then none
      else some ("Module source version changed from " ++ strip text ++ " to " ++ c.version)
    | none => none

def backendChanged (c : Settings A) (w : Files A) : Bool :=
  match w.backendHash with
  | some text => strip text != computeBackendHash S c
  | none => false

/-- `needs_reinit`: the reason, or `none` when no reinit is needed. -/
def needsReinit (c : Settings A) (w : Files A) : Option String :=
  if !isInitialized w then some "Module workspace not initialized"
  else if !w.created then some "Workspace directory missing"
  else if !w.lockFile then some "Provider lock file missing"
  else if !w.modulesDir then some "Downloaded modules cache missing (source was re-cloned)"
  else
    match versionChanged c w with
    | some reason => some reason
    | none => if backendChanged S c w then some "Backend configuration changed" else none

/-- `has_saved_plan`. -/
def hasSavedPlan (w : Files A) : Bool := w.created && w.planOut.isSome

/-- `vars_changed`: a missing stored hash counts as unchanged. -/
def varsChanged (c : Settings A) (varsHash : Option String) : Bool :=
  match varsHash with
  | none => false
  | some stored => computeVarsHash S c != stored

/-- `plan_is_valid`: the reason it is not, or `none`. -/
def planInvalid (c : Settings A) (varsHash : Option String) (w : Files A) : Option String :=
  if !hasSavedPlan w then some "No saved plan exists. Run Plan first."
  else if varsChanged S c varsHash then
    some "Variables have changed since plan was created. Re-run Plan."
  else if backendChanged S c w then
    some "Backend configuration has changed since plan was created. Re-run Plan."
  else if (needsReinit S c w).isSome then
    some "Module source has changed, re-initialization required. Run Init then Plan."
  else none

theorem planInvalid_eq_none_iff (c : Settings A) (varsHash : Option String) (w : Files A) :
    planInvalid S c varsHash w = none ↔
      hasSavedPlan w = true ∧ varsChanged S c varsHash = false ∧
        backendChanged S c w = false ∧ needsReinit S c w = none := by
  unfold planInvalid
  cases hasSavedPlan w <;> cases varsChanged S c varsHash <;> cases backendChanged S c w <;>
    cases needsReinit S c w <;> simp

/-! ### Updates -/

/-- `should_refresh_source`. -/
def shouldRefreshSource (c : Settings A) (w : Files A) : Bool :=
  c.sourceKind == "git_catalog" || w.tfFiles.isEmpty

/-- The source part of `prepare_persistent_workspace`. -/
def refreshSource (c : Settings A) (w : Files A) : Files A :=
  if shouldRefreshSource c w then
    { w with
      tfFiles := c.sourceFiles, modulesDir := false, lockFile := w.lockFile || c.sourceLockFile }
  else w

/-- `prepare_persistent_workspace`. -/
def preparePersistentWorkspace (c : Settings A) (w : Files A) : Files A :=
  let w := refreshSource c { w with created := true }
  { w with tfFiles := w.tfFiles ++ c.generatedFiles, tfvars := some c.assignment }

/-- `save_init_version`, which also saves the backend hash. -/
def saveInitVersion (c : Settings A) (w : Files A) : Files A :=
  { w with
    initVersion := some (if c.version = "" then "unknown" else c.version)
    backendHash := some (computeBackendHash S c) }

/-- `clear_plan`: `vars_hash` is kept. -/
def clearPlan (w : Files A) : Files A := { w with planOut := none }

/-- What a successful `tofu init` leaves: which of the files exist depends on whether the
configuration uses providers and child modules. -/
structure InitFiles where
  modulesDir : Bool
  lockFile : Bool
  deriving DecidableEq, Repr

/-- A successful `tofu init`, `mark_initialized` and `save_init_version`. -/
def initSucceeded (c : Settings A) (i : InitFiles) (w : Files A) : Files A :=
  saveInitVersion S c
    { w with
      terraformDir := true
      modulesDir := w.modulesDir || i.modulesDir
      lockFile := w.lockFile || i.lockFile }

end BnkForge.Workspace
