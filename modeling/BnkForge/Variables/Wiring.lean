import BnkForge.Variables.Lookup

/-!
# Inputs from dependencies

`apply_dependency_output_wiring` and `_resolve_from_dependency_outputs`
(`backend/services/execution/variable_assembler.py:847–965` and `1076–1147`). The variables are changed in
place, so a call that raises leaves what it has changed before.
-/

namespace BnkForge.Variables

open Python

inductive WiringError
  | valueError (message : String)
  /-- Raised by the lookup of a path. -/
  | lookup (e : Raised)
  deriving DecidableEq, Repr

section

variable (rows : List ProjectModule) (m : ProjectModule)

/-- `outputs.get(name)`, where it is not `None`; `None` is the name of no output. -/
def outputAt (dep : ProjectModule) (name : Option String) : Option Value :=
  (name.bind dep.outputs.get?).filter fun v ↦ !v.isNone

def declaredDependencies : List ProjectModule :=
  let deps := rows.filter fun d ↦ d.id ∈ m.dependencies
  (deps.filter fun d ↦ d.stackInstanceId = m.stackInstanceId ∧ d.hasOutputs = true) ++
    deps.filter fun d ↦ d.hasOutputs = true

def appliedModules : List ProjectModule :=
  rows.filter fun d ↦ d.projectId = m.projectId ∧ d.applied = true ∧
    (m.stackInstanceId.isSome = true → d.stackInstanceId = m.stackInstanceId)

/-- `_resolve_from_dependency_outputs`. -/
def resolveFromDependencyOutputs (outputName : Option String) : Option Value :=
  match (declaredDependencies rows m).findSome? fun d ↦ outputAt d outputName with
  | some value => some value
  | none =>
    match (appliedModules rows m).filter fun d ↦ d.hasOutputs && (outputAt d outputName).isSome with
    | [provider] => outputAt provider outputName
    | _ => none

def fromPath (inp : ModuleInput) : Option String :=
  if inp.source = some "module" then inp.fromModule.filter (· ≠ "") else none

def dependencyOf (path : String) : Except Raised (Option ProjectModule) :=
  findDependencyByPath rows m.projectId path m.stackInstanceId

/-- The text of `from_output`. -/
def outputText (inp : ModuleInput) : String := inp.fromOutput.getD "None"

def wireWithout (isRequired destroy : Bool) (vars : Vars) (inp : ModuleInput) (path : String)
    (fallbackValue : Option Value) : Vars × Option WiringError :=
  match fallbackValue with
  | some value => (if inp.name ∈ vars then vars else vars.set inp.name value, none)
  | none =>
    if inp.name ∉ vars ∧ inp.default.isNone = false then (vars.set inp.name inp.default, none)
    else if isRequired = true ∧ destroy = false ∧ inp.name ∉ vars then
      (vars, some (.valueError ("Required dependency not available: " ++ path ++ " (needed for input '" ++
        inp.name ++ "')")))
    else (vars, none)

def wireInput (requiredNames : List String) (destroy : Bool) (vars : Vars) (inp : ModuleInput) :
    Vars × Option WiringError :=
  match fromPath inp with
  | none => (vars, none)
  | some path =>
    let isRequired := decide (inp.name ∈ requiredNames)
    match dependencyOf rows m path with
    | .error e => (vars, some (.lookup e))
    | .ok none =>
      wireWithout isRequired destroy vars inp path (resolveFromDependencyOutputs rows m inp.fromOutput)
    | .ok (some dep) =>
      if dep.hasOutputs then
        match outputAt dep inp.fromOutput with
        | some value => (vars.set inp.name value, none)
        | none =>
          if isRequired = true ∧ destroy = false then
            (vars, some (.valueError ("Required dependency output not available: " ++ path ++ "." ++
              outputText inp ++ " -> " ++ inp.name)))
          else (vars, none)
      else wireWithout isRequired destroy vars inp path none

def wireInputs (requiredNames : List String) (destroy : Bool) (vars : Vars) :
    List ModuleInput → Vars × Option WiringError
  | [] => (vars, none)
  | inp :: inps =>
    match wireInput rows m requiredNames destroy vars inp with
    | (vars, some e) => (vars, some e)
    | (vars, none) => wireInputs requiredNames destroy vars inps

/-- `apply_dependency_output_wiring`: the variables afterwards, and what it raises. -/
def applyDependencyOutputWiring (library : Option ModuleLibrary) (vars : Vars) (operation : String) :
    Vars × Option WiringError :=
  match library with
  | none => (vars, none)
  | some library =>
    wireInputs rows m (library.inputs.required.map ModuleInput.name) (operation == "destroy") vars
      library.inputs.all

end

end BnkForge.Variables
