import BnkForge.Lib.PythonText
import BnkForge.Variables.Rows
import Mathlib.Data.List.Sort
import Mathlib.Data.Prod.Lex

/-!
# Common variables from applied modules

`auto_wire_common_variables` (`backend/services/execution/variable_assembler.py:1154–1287`) with the names
that it derives from the name of the project (`backend/utils/naming.py`). An output is taken for a variable
that `variables.get` does not find true.
-/

namespace BnkForge.Variables

open Python

/-! ### Names that are safe for a provider -/

/-- `re.sub("[...]+", "-", text)`: every stretch of such characters becomes one dash. -/
def dashFrom (p : Char → Bool) (within : Bool) : List Char → List Char
  | [] => []
  | c :: cs =>
    if p c then (if within then dashFrom p true cs else '-' :: dashFrom p true cs)
    else c :: dashFrom p false cs

/-- `text.strip(chars)`. -/
def stripChars (chars cs : List Char) : List Char :=
  (cs.dropWhile chars.contains).rdropWhile chars.contains

/-- `a or b` of texts. -/
def orText (cs fallback : List Char) : List Char := if cs.isEmpty then fallback else cs

def fallbackName : List Char := "bnk-forge".toList

def isLower (c : Char) : Bool := 'a' ≤ c && c ≤ 'z'

/-- `[A-Za-z0-9+=,.@_-]`. -/
def isAwsSafe (c : Char) : Bool :=
  isLower c || ('A' ≤ c && c ≤ 'Z') || c.isDigit || "+=,.@_-".toList.contains c

/-- `[a-z0-9-]`. -/
def isSlug (c : Char) : Bool := isLower c || c.isDigit || c == '-'

/-- `slugify_aws_name`. -/
def slugifyAwsName (value : String) : String :=
  let cleaned := dashFrom (fun c ↦ !isAwsSafe c) false (strip value.toList)
  let cleaned := orText (stripChars "-_.".toList (dashFrom (· == '-') false cleaned)) fallbackName
  String.ofList (orText ((cleaned.take 48).rdropWhile "-_.".toList.contains) fallbackName)

/-- The first steps of the names in small letters. -/
def slug (value : String) : List Char :=
  stripChars ['-'] (dashFrom (· == '-') false
    (dashFrom (fun c ↦ !isSlug c) false (lower (strip value.toList))))

/-- `slugify_s3_name`. -/
def slugifyS3Name (value : String) : String :=
  let cleaned := orText (slug value) fallbackName
  String.ofList (orText (stripChars ['-'] (cleaned.take 40)) fallbackName)

/-- `slugify_gcp_name`. -/
def slugifyGcpName (value : String) : String :=
  let cleaned := orText ((slug value).dropWhile fun c ↦ !isLower c) fallbackName
  String.ofList (orText ((cleaned.take 40).rdropWhile (· == '-')) fallbackName)

/-! ### Candidates -/

/-- An output of an applied module. -/
structure Candidate where
  value : Value
  sourcePath : Option String
  isDep : Bool
  isSameStack : Bool
  pmId : Nat

section

variable (rows : List ProjectModule) (m : ProjectModule)

def sources : List ProjectModule :=
  rows.filter fun pm ↦ pm.projectId = m.projectId ∧ pm.applied = true ∧ pm.id ≠ m.id ∧ pm.hasOutputs = true

/-- `is_dep`. -/
def isDep (pm : ProjectModule) : Bool := m.dependencies.contains pm.id

/-- `is_same_stack`. -/
def isSameStack (pm : ProjectModule) : Bool :=
  m.stackInstanceId.isSome && pm.stackInstanceId == m.stackInstanceId

def candidate (pm : ProjectModule) (value : Value) : Candidate :=
  ⟨value, pm.library.path, isDep m pm, isSameStack m pm, pm.id⟩

/-- `output_candidates`, by the names of the outputs. -/
def outputCandidates : Dict String (List Candidate) :=
  Dict.group ((sources rows m).flatMap fun pm ↦ pm.outputs.items.map fun o ↦ (o.1, candidate m pm o.2))

/-- `_candidate_priority`. -/
def candidatePriority (c : Candidate) : Nat ×ₗ Nat ×ₗ Nat :=
  if c.isSameStack then toLex (0, toLex (if c.isDep then 0 else 1, c.pmId))
  else if c.isDep then toLex (1, toLex (0, c.pmId))
  else toLex (2, toLex (0, c.pmId))

/-- `sorted(candidates, key=_candidate_priority)[0]`. -/
def selected (candidates : List Candidate) : Option Candidate :=
  (candidates.insertionSort fun a b ↦ candidatePriority a ≤ candidatePriority b).head?

/-- `available_outputs`, without what is only logged. -/
def availableOutputs : List (String × Value) :=
  (outputCandidates rows m).items.filterMap fun o ↦ (selected o.2).map fun c ↦ (o.1, c.value)

/-- `_AUTO_WIRE_SKIP`. -/
def autoWireSkip : List String := ["namespace", "release_name", "name"]

/-- A variable is assigned unless `variables.get(name)` is true. -/
def fillIn (vars : Vars) (item : String × Value) : Vars :=
  if ((vars.get? item.1).getD .none).truthy then vars else vars.set item.1 item.2

/-- A row of `projects`. -/
structure Project where
  name : String
  cloudProvider : Option String
  region : Option String

def projectVariables (project : Project) : List (String × Value) :=
  [("project_name", .str project.name), ("project_name_aws_safe", .str (slugifyAwsName project.name)),
    ("project_name_s3_safe", .str (slugifyS3Name project.name)),
    ("project_name_gcp_safe", .str (slugifyGcpName project.name))] ++
  match (if project.cloudProvider = some "aws" then project.region.filter (· ≠ "") else none) with
  | some region => [("region", .str region), ("aws_region", .str region)]
  | none => []

/-- `auto_wire_common_variables`, with the row of the project where it is found. -/
def autoWireCommonVariables (project : Option Project) (vars : Vars) : Vars :=
  let vars := ((availableOutputs rows m).filter (·.1 ∉ autoWireSkip)).foldl fillIn vars
  match project with
  | none => vars
  | some project => (projectVariables project).foldl fillIn vars

end

end BnkForge.Variables
