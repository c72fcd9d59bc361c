import BnkForge.Lib.Dict
import BnkForge.Lib.PythonValue

/-!
# What variables are assembled from

The columns of `ModuleLibrary` and `ProjectModule` (`backend/models/module.py:23–80`,
`backend/models/project.py:138–190`) that `backend/services/execution/variable_assembler.py` reads. Every
module of a project has a row of the library.
-/

namespace BnkForge.Variables

open Python

abbrev Vars := Dict String Value

structure ModuleInput where
  name : String
  source : Option String
  fromModule : Option String
  fromOutput : Option String
  /-- `inp.get("default")`. -/
  default : Value
  encoding : Option String

/-- `inputs_metadata`; no metadata declares no inputs. -/
structure InputsMetadata where
  required : List ModuleInput
  optional : List ModuleInput

/-- `required_inputs + optional_inputs`. -/
def InputsMetadata.all (inputs : InputsMetadata) : List ModuleInput := inputs.required ++ inputs.optional

structure ModuleLibrary where
  path : Option String
  inputs : InputsMetadata

structure ProjectModule where
  id : Nat
  projectId : Nat
  stackInstanceId : Option Nat
  /-- The status is `applied`. -/
  applied : Bool
  dependencies : List Nat
  /-- `outputs or {}`. -/
  outputs : Dict String Value
  library : ModuleLibrary

/-- `bool(outputs)`. -/
def ProjectModule.hasOutputs (m : ProjectModule) : Bool := !m.outputs.items.isEmpty

end BnkForge.Variables
