import BnkForge.Container.Manifest
import BnkForge.Container.Redaction

/-!
# The container engine

`ContainerEngine` (`backend/services/execution/container_engine.py:117–523,690–769`): a phase or an
action of an artifact as the calls it makes of the runner. The runner answers each call by the ones
behind it, with the lines it printed and its result, or raises. Resource limits of the interpreter,
the clock and the callback for the output are left out, as is the `PlanResult` around a plan.
-/

namespace BnkForge.Container

open Python

/-! ### Data -/

structure EngineConfig where
  workspaceHostPath : String := ""
  workspaceVolume : Option String := none
  workspaceSubpath : Option String := none
  mountPath : String := "/state"
  outputsFilename : String := "outputs.json"
  pullAuthfileJson : Option String := none
  celeryTaskId : Option String := none
  secretValues : List String := []
  deriving DecidableEq, Repr

structure ModuleContext where
  moduleId : Nat
  projectId : Nat
  vars : List (String × Value)
  credentialsEnv : List (String × String)
  packManifest : Value

/-- `ResourceLimits`. -/
structure ResourceLimits where
  cpus : Option String := none
  memory : Option String := none
  pids : Option Int := none
  deriving DecidableEq, Repr

/-- `StepSpec`. -/
structure StepSpec where
  imageDigest : String
  args : List String
  config : EngineConfig
  env : List (String × String)
  homeEnv : List (String × String)
  limits : ResourceLimits
  timeoutSeconds : Int
  componentKey : String
  stepName : String
  deriving DecidableEq, Repr

/-- `StepResult`, as far as the engine reads it. -/
structure StepResult where
  success : Bool
  exitCode : Int := 0
  timedOut : Bool := false
  deriving DecidableEq, Repr

/-- An answer of the runner: the lines it printed and its result, `none` where it raised. -/
structure Reply where
  lines : List String := []
  result : Option StepResult
  deriving DecidableEq, Repr

/-- What the engine meets outside: the runner, the marker files in the workspace, whether the marker
of the step at an index can be written, and the outputs file as far as it can be read. -/
structure Surroundings where
  runner : List StepSpec → StepSpec → Reply
  markers : List String
  writable : Nat → Bool
  outputsFile : String → Option Value

/-- What an operation raises. -/
inductive EngineError
  | valueError (message : String)
  | attributeError
  /-- A conversion by `int`. -/
  | intError (error : IntError)
  /-- `time.sleep` with more seconds than the clock counts. -/
  | sleepOverflow
  deriving DecidableEq, Repr

inductive Failure
  | notAnObject (index : Nat)
  | noArgs (stepName : String)
  | stepFailed (message : String)
  | noApply
  | noAction (action : String) (declared : List String)
  | noSteps (action : String)
  deriving DecidableEq, Repr

def Failure.message : Failure → String
  | notAnObject index => "step[" ++ toString index ++ "] must be an object"
  | noArgs stepName => "step '" ++ stepName ++ "' has no args argv list"
  | stepFailed message => message
  | noApply =>
    "Artifact declares no apply step-set; a procedural artifact requires steps.apply."
  | noAction action declared => "Artifact declares no action '" ++ action ++
      "' (declared actions: " ++
      (if declared.isEmpty then "none" else ", ".intercalate declared.mergeSort) ++ ")."
  | noSteps action => "Action '" ++ action ++ "' declares no steps."

/-- `OperationResult`. -/
structure OperationResult where
  outputs : List (String × Value) := []
  stdout : String := ""
  failure : Option Failure := none
  resourcesCreated : Nat := 0

inductive StepEvent
  /-- The `when` gate is false. -/
  | gated (index : Nat)
  /-- Its marker exists. -/
  | skippedOnce (index : Nat)
  | completed (index : Nat)
  deriving DecidableEq, Repr

structure PhaseState where
  collected : List String := []
  calls : List StepSpec := []
  markers : List String
  executed : Nat := 0
  events : List StepEvent := []

/-- What the steps of a phase share. -/
structure Shared where
  imageDigest : String
  homeEnv : List (String × String)
  limits : ResourceLimits
  deriving DecidableEq, Repr

/-- How the loop goes on after a step. -/
inductive Outcome
  | next
  | failed (failure : Failure)
  | raised (error : EngineError)
  deriving DecidableEq, Repr

/-! ### Templates -/

/-- A character that an input name may begin with. -/
def isKeyStart (c : Char) : Bool := c.isAlpha || c == '_'

/-- A character of an input name. -/
def isKeyChar (c : Char) : Bool := c.isAlphanum || c == '_' || c == '.'

/-- The end of an input token: blanks and two braces. -/
def tokenEnd (cs : List Char) : Option (List Char) :=
  match cs.dropWhile isSpace with
  | '}' :: '}' :: rest => some rest
  | _ => none

/-- `_INPUT_TOKEN_RE` at the beginning of a text: the name and the length of the token. -/
def matchToken : List Char → Option (List Char × Nat)
  | '{' :: '{' :: cs =>
    let body := cs.dropWhile isSpace
    if "inputs.".toList.isPrefixOf body then
      let key := (body.drop 7).takeWhile isKeyChar
      if key.head?.any isKeyStart then
        (tokenEnd ((body.drop 7).drop key.length)).map fun rest ↦
          (key, 2 + cs.length - rest.length)
      else none
    else none
  | _ => none

/-- The names of the input tokens of a text, with `skip` characters still to be passed over. -/
def tokensFrom : Nat → List Char → List (List Char)
  | _, [] => []
  | skip + 1, _ :: cs => tokensFrom skip cs
  | 0, c :: cs =>
    match matchToken (c :: cs) with
    | some (key, length) => key :: tokensFrom (length - 1) cs
    | none => tokensFrom 0 cs

def tokensOf (text : String) : List (List Char) := tokensFrom 0 text.toList

/-- The tokens of a text replaced, with `skip` characters still to be passed over. -/
def renderFrom (resolve : List Char → Except EngineError (List Char)) :
    Nat → List Char → Except EngineError (List Char)
  | _, [] => .ok []
  | skip + 1, _ :: cs => renderFrom resolve skip cs
  | 0, c :: cs =>
    match matchToken (c :: cs) with
    | some (key, length) => do
      let value ← resolve key
      let rest ← renderFrom resolve (length - 1) cs
      .ok (value ++ rest)
    | none => do
      let rest ← renderFrom resolve 0 cs
      .ok (c :: rest)

/-- The value at the end of a path of names; `_lookup_input` for a key that is split. -/
def lookupParts (node : Value) : List String → Value
  | [] => if node.isNone then .str "" else node
  | part :: parts =>
    if node.isDict then
      match node.items.lookup part with
      | some value => lookupParts value parts
      | none => .str ""
    else .str ""

/-- `_lookup_input`. -/
def lookupInput (key : List Char) (vars : List (String × Value)) : Value :=
  lookupParts (.dict vars) ((key.splitOn '.').map String.ofList)

def typeName : Value → String
  | .list _ => "list"
  | .dict _ => "dict"
  | _ => "NoneType"

section Engine

variable (repr : Value → String)

def resolveInput (vars : List (String × Value)) (key : List Char) :
    Except EngineError (List Char) :=
  let resolved := lookupInput key vars
  if resolved.isScalar then .ok (resolved.toText repr).toList
  else .error (.valueError ("Input '" ++ String.ofList key ++ "' is a " ++ typeName resolved ++
    "; only scalar values can be templated into a step argument"))

/-- `_render_str`. -/
def renderStr (vars : List (String × Value)) (text : String) : Except EngineError String :=
  (renderFrom (resolveInput repr vars) 0 text.toList).map String.ofList

/-- `_render_args`. -/
def renderArgs (vars : List (String × Value)) : List Value → Except EngineError (List String)
  | [] => .ok []
  | .str token :: tokens => do
    let rendered ← renderStr repr vars token
    let rest ← renderArgs vars tokens
    .ok (rendered :: rest)
  | _ :: _ => .error (.valueError "step args entries must be strings")

def renderItems (vars : List (String × Value)) :
    List (String × Value) → Except EngineError (List (String × String))
  | [] => .ok []
  | (key, value) :: items => do
    let rendered ← renderStr repr vars (value.toText repr)
    let rest ← renderItems vars items
    .ok ((key, rendered) :: rest)

/-- `_render_env`. -/
def renderEnv (vars : List (String × Value)) (env : Value) :
    Except EngineError (List (String × String)) :=
  if env.truthy then
    match env with
    | .dict items => renderItems repr vars items
    | _ => .error .attributeError
  else .ok []

/-- `_step_enabled`. -/
def stepEnabled (vars : List (String × Value)) (step : Value) : Except EngineError Bool :=
  match step.get "when" with
  | .none => .ok true
  | .bool b => .ok b
  | .str text => do
    let rendered ← renderStr repr vars text
    .ok !(["", "false", "0", "no", "none"].contains (folded rendered))
  | value => .ok value.truthy

def stepName (index : Nat) (step : Value) : String :=
  ((step.get "name").orElse (.str ("step-" ++ toString index))).toText repr

/-! ### From the manifest to a call -/

/-- `(value or "")` where a method of `str` is called on it. -/
def textOrEmpty (value : Value) : Except EngineError (List Char) :=
  if value.truthy then
    match value with
    | .str text => .ok text.toList
    | _ => .error .attributeError
  else .ok []

/-- `text.strip("/")`. -/
def stripSlashes (cs : List Char) : List Char := (cs.dropWhile (· == '/')).rdropWhile (· == '/')

/-- `_resolve_image_digest`. -/
def resolveImageDigest (manifest : Value) : Except EngineError String := do
  let block := manifest.get "container_image"
  if !block.isDict then
    .error (.valueError "artifact manifest is missing the container_image block")
  else
    let host := (strip (← textOrEmpty (block.get "registry_host"))).rdropWhile (· == '/')
    let repo := stripSlashes (strip (← textOrEmpty (block.get "repository")))
    let digest := strip (← textOrEmpty (block.get "digest"))
    if host.isEmpty || repo.isEmpty || digest.isEmpty then
      .error (.valueError "container_image block requires registry_host, repository, and digest")
    else .ok (String.ofList (host ++ '/' :: repo ++ '@' :: digest))

/-- `_build_home_env`. -/
def buildHomeEnv (manifest : Value) (vars : List (String × Value)) :
    Except EngineError (List (String × String)) :=
  renderItems repr vars ((manifest.get "state").get "home_env").items

/-- `int(value)`. -/
def intOf (value : Value) : Except EngineError Int := value.toInt.mapError .intError

/-- `_resolve_limits`. -/
def resolveLimits (manifest : Value) : Except EngineError ResourceLimits := do
  let limits := (manifest.get "execution").get "limits"
  let textOf := fun key ↦ if (limits.get key).isNone then none else some ((limits.get key).toText repr)
  let pids ← if (limits.get "pids").isNone then .ok none else (intOf (limits.get "pids")).map some
  .ok ⟨textOf "cpus", textOf "memory", pids⟩

/-- `_step_retry_policy`: the attempts and the seconds between them. -/
def stepRetryPolicy (step : Value) : Except EngineError (Nat × Nat) := do
  let retry := step.get "retry"
  let number := fun (key : String) (least : Int) ↦
    match (retry.get key).toInt with
    | .ok n => Except.ok (max least n).toNat
    | .error .overflowError => .error (EngineError.intError .overflowError)
    | .error _ => .ok least.toNat
  if retry.isDict then
    let maxAttempts ← number "max_attempts" 1
    let backoffSeconds ← number "backoff_seconds" 0
    .ok (maxAttempts, backoffSeconds)
  else .ok (1, 0)

/-- `{**a, **b}`. -/
def merged (a b : List (String × String)) : List (String × String) :=
  (a.filter fun item ↦ !b.any fun other ↦ other.1 == item.1) ++ b

/-- What `_run_phase` resolves before the first step. -/
def resolveShared (ctx : ModuleContext) : Except EngineError Shared := do
  let imageDigest ← resolveImageDigest ctx.packManifest
  let homeEnv ← buildHomeEnv repr ctx.packManifest ctx.vars
  let limits ← resolveLimits repr ctx.packManifest
  .ok ⟨imageDigest, homeEnv, limits⟩

/-- `int(step.get("timeout_seconds", 1800))`. -/
def timeoutSeconds (step : Value) : Except EngineError Int :=
  match step.items.lookup "timeout_seconds" with
  | some value => intOf value
  | none => .ok 1800

def prepareStep (config : EngineConfig) (ctx : ModuleContext) (shared : Shared) (index : Nat)
    (step : Value) : Except EngineError (StepSpec × Nat × Nat) := do
  let args ← renderArgs repr ctx.vars (elements (step.get "args"))
  let env ← renderEnv repr ctx.vars (step.get "env")
  let timeout ← timeoutSeconds step
  let policy ← stepRetryPolicy step
  .ok (⟨shared.imageDigest, args, config, merged ctx.credentialsEnv env, shared.homeEnv,
    shared.limits, timeout, "p" ++ toString ctx.projectId ++ "-m" ++ toString ctx.moduleId,
    stepName repr index step⟩, policy)

/-! ### Running -/

def markerName (name : String) : String :=
  ".bnkforge_step_" ++ String.ofList (name.toList.map fun c ↦
    if c.isAlphanum || c == '_' || c == '.' || c == '-' then c else '_') ++ ".done"

/-- `_redact`; the engine keeps the secrets that are not empty. -/
def redactLine (config : EngineConfig) (line : String) : String :=
  String.ofList (redact ((config.secretValues.filter fun s ↦ !s.isEmpty).map String.toList) line.toList)

/-- `_sink`. -/
def PhaseState.sink (config : EngineConfig) (s : PhaseState) (line : String) : PhaseState :=
  { s with collected := s.collected ++ [redactLine config line] }

/-- `_run_step`. -/
def runStep (config : EngineConfig) (around : Surroundings) (spec : StepSpec) (s : PhaseState) :
    PhaseState × StepResult :=
  let reply := around.runner s.calls spec
  let s := reply.lines.foldl (PhaseState.sink config) { s with calls := s.calls ++ [spec] }
  (s, reply.result.getD { success := false, exitCode := 1 })

/-- The most seconds that `time.sleep` takes. -/
def maxSleepSeconds : Nat := 9223372036

def attemptStep (config : EngineConfig) (around : Surroundings) (spec : StepSpec)
    (maxAttempts backoffSeconds : Nat) :
    Nat → Nat → PhaseState → PhaseState × Except EngineError (StepResult × Nat)
  | left, attempt, s =>
    let (s, result) := runStep config around spec s
    if result.success || result.timedOut then (s, .ok (result, attempt))
    else
      match left with
      | 0 => (s, .ok (result, attempt))
      | left + 1 =>
        let s := s.sink config ("- step '" ++ spec.stepName ++ "' failed (attempt " ++
          toString attempt ++ "/" ++ toString maxAttempts ++ ", exit " ++ toString result.exitCode ++
          "); retrying in " ++ toString backoffSeconds ++ "s")
        if maxSleepSeconds < backoffSeconds then (s, .error .sleepOverflow)
        else attemptStep config around spec maxAttempts backoffSeconds left (attempt + 1) s

def failureMessage (config : EngineConfig) (name : String) (result : StepResult) (attempts : Nat) :
    String :=
  redactLine config ("step '" ++ name ++ "' failed (exit " ++ toString result.exitCode ++
    (if result.timedOut then ", timed out" else "") ++
    (if 1 < attempts then ", after " ++ toString attempts ++ " attempts" else "") ++ ")")

/-- One step of the loop of `_run_phase`. -/
def runOne (config : EngineConfig) (around : Surroundings) (ctx : ModuleContext) (shared : Shared)
    (index : Nat) (step : Value) (s : PhaseState) : PhaseState × Outcome :=
  if !step.isDict then (s, .failed (.notAnObject index))
  else
    let name := stepName repr index step
    match stepEnabled repr ctx.vars step with
    | .error e => (s, .raised e)
    | .ok false =>
      let s := s.sink config ("- skipping step '" ++ name ++ "' (when gate false)")
      ({ s with events := s.events ++ [.gated index] }, .next)
    | .ok true =>
      if (step.get "run_once").truthy && s.markers.contains (markerName name) then
        let s := s.sink config ("- skipping step '" ++ name ++
          "' (run_once; already completed for this workspace)")
        ({ s with events := s.events ++ [.skippedOnce index] }, .next)
      else if !(step.get "args").isList || (elements (step.get "args")).isEmpty then
        (s, .failed (.noArgs name))
      else
        match prepareStep repr config ctx shared index step with
        | .error e => (s, .raised e)
        | .ok (spec, maxAttempts, backoffSeconds) =>
          match attemptStep config around spec maxAttempts backoffSeconds (maxAttempts - 1) 1 s with
          | (s, .error e) => (s, .raised e)
          | (s, .ok (result, attempts)) =>
            let s := { s with executed := s.executed + 1 }
            if result.success then
              ({ s with
                markers := if (step.get "run_once").truthy && around.writable index then
                  s.markers ++ [markerName name] else s.markers
                events := s.events ++ [.completed index] }, .next)
            else (s, .failed (.stepFailed (failureMessage config name result attempts)))

/-- The loop of `_run_phase`. -/
def runSteps (config : EngineConfig) (around : Surroundings) (ctx : ModuleContext) (shared : Shared) :
    List (Nat × Value) → PhaseState → PhaseState × Outcome
  | [], s => (s, .next)
  | (index, step) :: steps, s =>
    match runOne repr config around ctx shared index step s with
    | (s, .next) => runSteps config around ctx shared steps s
    | (s, outcome) => (s, outcome)

/-- `_is_workspace_relative`. -/
def isWorkspaceRelative (path : List Char) : Bool :=
  !(path.isEmpty || ['/'].isPrefixOf path || ['\\'].isPrefixOf path) &&
    !(normpath path == ['.', '.'] || ['.', '.', '/'].isPrefixOf (normpath path))

/-- `_resolve_outputs_filename`. -/
def resolveOutputsFilename (config : EngineConfig) (manifest : Value) : String :=
  match (manifest.get "state").get "outputs_file" with
  | .str declared =>
    if isWorkspaceRelative (strip declared.toList) then stripped declared
    else config.outputsFilename
  | _ => config.outputsFilename

/-- `_normalize_outputs`. -/
def normalizeOutputs (data : Value) : List (String × Value) :=
  data.items.map fun item ↦
    match item.2.items.lookup "value" with
    | some value => (item.1, value)
    | none => item

/-- `_run_phase`. -/
def runPhase (config : EngineConfig) (around : Surroundings) (ctx : ModuleContext)
    (steps : List Value) (captureOutputs : Bool) :
    PhaseState × Except EngineError OperationResult :=
  match resolveShared repr ctx with
  | .error e => ({ markers := around.markers }, .error e)
  | .ok shared =>
    match runSteps repr config around ctx shared (indexed steps) { markers := around.markers } with
    | (s, .raised e) => (s, .error e)
    | (s, .failed failure) =>
      (s, .ok { stdout := "\n".intercalate s.collected, failure := some failure })
    | (s, .next) =>
      (s, .ok {
        outputs := if captureOutputs then
          ((around.outputsFile (resolveOutputsFilename config ctx.packManifest)).map
            normalizeOutputs).getD [] else []
        stdout := "\n".intercalate s.collected
        resourcesCreated := if captureOutputs then s.executed else 0 })

inductive Operation
  | init
  | plan
  | apply
  | destroy
  /-- A declared action with the inputs of the call. -/
  | action (name : String) (inputs : List (String × Value))

def Operation.phase : Operation → String
  | init => "init"
  | plan => "plan"
  | apply => "apply"
  | destroy => "destroy"
  | action name _ => "actions." ++ name

/-- `{**variables, **inputs}`. -/
def overlay (vars inputs : List (String × Value)) : List (String × Value) :=
  (vars.filter fun item ↦ !inputs.any fun other ↦ other.1 == item.1) ++ inputs

def contextOf (ctx : ModuleContext) : Operation → ModuleContext
  | .action _ inputs => { ctx with vars := overlay ctx.vars inputs }
  | _ => ctx

/-- The step-set of an operation, `None` where the manifest has none. -/
def stepSetOf (manifest : Value) : Operation → Value
  | .action name _ => ((manifest.get "actions").get name).get "steps"
  | op => ((canonicalStepSets manifest).lookup op.phase).getD .none

def noStepSet (op : Operation) (manifest : Value) : OperationResult :=
  match op with
  | .init => { stdout := "No init steps declared for artifact; nothing to do." }
  | .plan => { stdout := "No plan steps declared for artifact; assuming changes." }
  | .apply => { failure := some .noApply }
  | .destroy =>
    { stdout := "Artifact does not declare a destroy step-set; nothing to tear down." }
  | .action name _ =>
    if (manifest.get "actions").items.any fun item ↦ item.1 == name then
      { failure := some (.noSteps name) }
    else { failure := some (.noAction name ((manifest.get "actions").items.map Prod.fst)) }

/-- `init`, `plan`, `apply`, `destroy` and `run_action`. -/
def runOperation (config : EngineConfig) (around : Surroundings) (ctx : ModuleContext)
    (op : Operation) : PhaseState × Except EngineError OperationResult :=
  match stepSetOf ctx.packManifest op with
  | .list (step :: steps) =>
    runPhase repr config around (contextOf ctx op) (step :: steps) (op matches .apply)
  | .list [] => ({ markers := around.markers }, .ok (noStepSet op ctx.packManifest))
  | .none => ({ markers := around.markers }, .ok (noStepSet op ctx.packManifest))
  | _ =>
    match op with
    | .action name _ =>
      ({ markers := around.markers }, .ok { failure := some (.noSteps name) })
    | _ =>
      ({ markers := around.markers }, .error (.valueError ("steps." ++ op.phase ++ " must be a list")))

end Engine

end BnkForge.Container
