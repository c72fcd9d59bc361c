import BnkForge.Catalog.Pins
import BnkForge.Catalog.Templates
import BnkForge.Lib.Dict

/-!
# Values that a release inherits

`create_project_from_release` and `add_release_to_project` with the variables they store
(`backend/services/imported_blueprint_service.py:35–41,342–479,509–599,673–829`), and what
`_persist_stack_variable_defaults` makes of them (`backend/services/stack_service.py:64–107`).
-/

namespace BnkForge.Inheritance

open BnkForge.Blueprint BnkForge.Catalog BnkForge.Templates Python List

/-! ### Releases and where values come from -/

/-- An entry of `inputs.required` or `inputs.optional`; an entry without a name has the empty one. -/
structure InputDef where
  name : String
  default : Option Value := none
  source : Option String := none
  sourceField : Option String := none

/-- A module of the manifest with its `inputs`. -/
structure ReleaseModule extends ModuleDef where
  inputs : Dict String Value := .empty

/-- A row of `blueprint_releases`: the inputs are the required ones and then the optional ones, the
prerequisites their types. -/
structure BlueprintRelease where
  id : Nat
  validationState : String
  releaseState : String
  sourcePath : Option String
  blueprintName : String
  modules : List ReleaseModule
  inputs : List InputDef
  prerequisites : List String

def BlueprintRelease.toRelease (release : BlueprintRelease) : Release where
  id := release.id
  validationState := release.validationState
  releaseState := release.releaseState
  sourcePath := release.sourcePath
  blueprintName := release.blueprintName
  modules := release.modules.map ReleaseModule.toModuleDef

/-- `CloudCredentialTemplate`. -/
structure CredentialTemplate where
  provider : String
  region : Option String := none
  ibmcloudResourceGroup : Option String := none
  ibmcloudApiKeyEncrypted : Option String := none
  deriving DecidableEq, Repr

/-- What is read of a request or of a project, with the template that its
`credential_template_id` finds. -/
structure Target where
  region : Option String := none
  name : Option String := none
  template : Option CredentialTemplate := none
  deriving DecidableEq, Repr

/-- What the calls use: the catalog with the names of each `variables_schema`, the validation of the
overrides of a module, and what is not modelled of values and keys. -/
structure Installation where
  repr : Value → String
  decrypt : String → Option String
  limit : Nat
  set : Graph.SetOrder
  catalog : List LibraryModule
  variablesSchema : Nat → List String
  validate : LibraryModule → Dict String Value → List String → Option String

/-! ### The variables of a call -/

def given (text : Option String) : Option String := text.filter (· ≠ "")

/-- `INHERIT_FROM_TEMPLATE_SENTINEL`. -/
def inheritSentinel : String := "__inherited_from_template__"

/-- `_is_inherit_request`. -/
def isInheritRequest (value : Value) : Bool :=
  value.isNone || value.isText "" || value.isText inheritSentinel

/-- `variables.get(name)`. -/
def getVariable (vars : Dict String Value) (name : String) : Value :=
  (vars.get? name).getD .none

/-- `_collect_blueprint_input_defaults`. -/
def collectBlueprintInputDefaults (inputs : List InputDef) : Dict String Value :=
  Dict.empty.setAll (inputs.filterMap fun d ↦
    if d.name = "" then none else d.default.map (Prod.mk d.name))

/-- `d.setdefault(name, value)` for each item. -/
def setDefaults (vars : Dict String Value) (items : List (String × Value)) : Dict String Value :=
  items.foldl (fun vs i ↦ if i.1 ∈ vs then vs else vs.set i.1 i.2) vars

/-- `_apply_blueprint_input_defaults`. -/
def applyBlueprintInputDefaults (repr : Value → String) (inputs : List InputDef)
    (vars : Dict String Value) : Dict String Value :=
  let resolved := setDefaults vars (collectBlueprintInputDefaults inputs).items
  resolved.map (renderTemplateObj repr resolved.get?)

/-- `fill`. -/
def fill (resolved : Dict String Value) (field : String) (value : Option String) : Dict String Value :=
  match given value with
  | some text =>
    if isInheritRequest (getVariable resolved field) then resolved.set field (.str text) else resolved
  | none => resolved

/-- `_apply_credential_template_inheritance`. -/
def applyCredentialTemplateInheritance (decrypt : String → Option String) (target : Target)
    (vars : Dict String Value) : Dict String Value :=
  let resolved := fill vars "ibmcloud_cluster_region" target.region
  match target.template with
  | none => resolved
  | some template =>
    if template.provider ≠ "ibm" then resolved
    else
      let resolved := fill resolved "ibmcloud_cluster_region" template.region
      let resolved := fill resolved "ibmcloud_resource_group" template.ibmcloudResourceGroup
      match given template.ibmcloudApiKeyEncrypted with
      | some encrypted => fill resolved "ibmcloud_api_key" (decrypt encrypted)
      | none => resolved

def sourceText (decrypt : String → Option String) (target : Target) (d : InputDef) : Option String :=
  match given d.source, given d.sourceField with
  | some "project", some "region" => given target.region
  | some "project", some "name" => given target.name
  | some "credential_template", some field =>
    match target.template with
    | none => none
    | some template =>
      if template.provider ≠ "ibm" then none
      else if field = "ibmcloud_resource_group" then given template.ibmcloudResourceGroup
      else if field = "ibmcloud_api_key" then
        (given template.ibmcloudApiKeyEncrypted).bind fun encrypted ↦ given (decrypt encrypted)
      else if field = "region" then given template.region
      else none
  | _, _ => none

/-- One step of `_apply_explicit_input_source_mappings`. -/
def applyInputSourceMapping (decrypt : String → Option String) (target : Target)
    (resolved : Dict String Value) (d : InputDef) : Dict String Value :=
  if d.name = "" then resolved
  else
    let current := getVariable resolved d.name
    if isInheritRequest current || current.equals (d.default.getD .none) then
      match sourceText decrypt target d with
      | some text => resolved.set d.name (.str text)
      | none => resolved
    else resolved

/-- `_apply_explicit_input_source_mappings`. -/
def applyExplicitInputSourceMappings (decrypt : String → Option String) (inputs : List InputDef)
    (target : Target) (vars : Dict String Value) : Dict String Value :=
  inputs.foldl (applyInputSourceMapping decrypt target) vars

/-- The variables of a call: the defaults are added, references are replaced, and then come the
values that are inherited. -/
def resolvedVariables (env : Installation) (release : BlueprintRelease) (target : Target)
    (vars : Dict String Value) : Dict String Value :=
  applyExplicitInputSourceMappings env.decrypt release.inputs target
    (applyCredentialTemplateInheritance env.decrypt target
      (applyBlueprintInputDefaults env.repr release.inputs vars))

/-! ### What is stored -/

def defaultEntries (name : String) : Value → List (String × Value)
  | .dict items => items.filter fun i ↦ !i.2.isDict
  | value => if name.toList.contains '/' then [] else [(name, value)]

/-- The assignments of `_extract_stack_variable_defaults`. -/
def stackEntries (vars : Dict String Value) : List (String × Value) :=
  vars.items.flatMap fun i ↦ defaultEntries i.1 i.2

/-- `_extract_stack_variable_defaults`. -/
def extractStackVariableDefaults (vars : Dict String Value) : Dict String Value :=
  Dict.empty.setAll (stackEntries vars)

def resolvedInputs (repr : Value → String) (schema : List String) (inputs vars : Dict String Value) :
    Dict String Value :=
  schema.foldl (fun resolved name ↦
      if name = "" then resolved
      else
        match vars.get? name with
        | some value => resolved.set name value
        | none => resolved)
    (inputs.map (renderTemplateObj repr vars.get?))

/-- The `variable_overrides` of a module that is bound to a row of the catalog. -/
def overridesOf (env : Installation) (vars : Dict String Value) (d : ReleaseModule) (m : LibraryModule) :
    Dict String Value :=
  resolvedInputs env.repr (env.variablesSchema m.id) d.inputs vars

def boundModules (env : Installation) (release : BlueprintRelease) :
    List (ReleaseModule × LibraryModule) :=
  release.modules.filterMap fun d ↦ (resolveLibraryModule env.catalog d.toModuleDef).map (Prod.mk d)

/-- `blueprint_context_resolved_names`. -/
def contextResolvedNames (inputs : List InputDef) : List String :=
  (inputs.filter fun d ↦ d.name ≠ "" &&
    d.source.any fun source ↦
      ["credential_template", "project", "project_secret", "module"].contains source).map InputDef.name

/-- What `add_module` refuses in the overrides of a module. -/
def refusal (env : Installation) (release : BlueprintRelease) (vars : Dict String Value) (d : ModuleDef) :
    Option String :=
  match (boundModules env release).find? fun b ↦ b.1.toModuleDef == d with
  | none => none
  | some (d, m) =>
    let overrides := overridesOf env vars d m
    if overrides.items.isEmpty then none
    else env.validate m overrides (contextResolvedNames release.inputs)

structure Stored where
  /-- The entries that are written to the `variable_defaults` of the project. -/
  variableDefaults : Dict String Value
  /-- The variables of the stack, where there is one. -/
  stackVariables : Option (Dict String Value)
  /-- The `variable_overrides` of the created modules. -/
  variableOverrides : List (Dict String Value)

def storedOf (env : Installation) (release : BlueprintRelease) (vars : Dict String Value)
    (stack : Option (Dict String Value)) : Stored where
  variableDefaults := extractStackVariableDefaults vars
  stackVariables := stack
  variableOverrides := (boundModules env release).map fun b ↦ overridesOf env vars b.1 b.2

/-- `_create_release_modules`. -/
def createModules (env : Installation) (release : BlueprintRelease) (projectId : Nat)
    (vars : Dict String Value) (s : ReleaseTable) : Except CreationError ReleaseTable :=
  match createReleaseModules env.limit env.set env.catalog (refusal env release vars) release.id projectId
      (release.modules.map ReleaseModule.toModuleDef) s with
  | .error e => .error (.modules e)
  | .ok (t, _) => .ok t

/-- `create_project_from_release` in the project that is created for it; what raises deletes the
project again. -/
def createProjectFromRelease (env : Installation) (release : BlueprintRelease) (request : Target)
    (requestVariables : Dict String Value) (projectId : Nat) (s : ReleaseTable) :
    Except CreationError (ReleaseTable × Stored) := do
  validateRelease env.catalog release.toRelease
  let vars := resolvedVariables env release request requestVariables
  let t ← createModules env release projectId vars s
  pure (t, storedOf env release vars (some vars))

/-- `_reject_surviving_inherit_sentinels`. -/
def rejectSurvivingInheritSentinels (vars : Dict String Value) : Except CreationError Unit :=
  let sentinelKeys := ((vars.items.filter fun i ↦ i.2.isText inheritSentinel).map Prod.fst).mergeSort
  if sentinelKeys = [] then .ok ()
  else .error (.badRequest "BLUEPRINT_CREDENTIAL_TEMPLATE_REQUIRED"
    ("Blueprint requires values inherited from a credential template (" ++
      ", ".intercalate sentinelKeys ++ "), but the target project has no matching credential " ++
      "template configured. Set a matching credential template on the project, or supply these " ++
      "values explicitly, then try again.") [])

def refuse (condition : Prop) [Decidable condition] (e : CreationError) : Except CreationError Unit :=
  if condition then .error e else .ok ()

/-- `add_release_to_project`; what raises is rolled back. -/
def addReleaseToProject (env : Installation) (release : BlueprintRelease) (project : Target)
    (requestVariables : Dict String Value) (projectId clusterCount : Nat) (s : ReleaseTable) :
    Except CreationError (ReleaseTable × Stored) := do
  validateRelease env.catalog release.toRelease
  refuse ("kubernetes_cluster" ∈ release.prerequisites ∧ clusterCount = 0)
    (.badRequest "BLUEPRINT_REQUIRES_REGISTERED_CLUSTER"
      ("This blueprint requires a registered Kubernetes cluster in the target project. " ++
        "Register a cluster first, then add this blueprint.") [])
  refuse (projectId ∉ s.table.projects) (.modules (.call (.notFound "project" projectId)))
  rejectSurvivingInheritSentinels (resolvedVariables env release project requestVariables)
  refuse (∃ m ∈ s.table.ofProject projectId,
      ("imported-blueprint/" ++ toString release.id ++ "/").toList <+: m.pathInProject.toList)
    (.badRequest "BLUEPRINT_ALREADY_INSTALLED"
      ("Blueprint release '" ++ release.blueprintName ++ "' (id=" ++ toString release.id ++
        ") is already installed in this project. Each blueprint release can only be added once.") [])
  let t ← createModules env release projectId
    (resolvedVariables env release project requestVariables) s
  pure (t, storedOf env release (resolvedVariables env release project requestVariables) none)

/-! ### The marker -/

mutual

def mentions : Value → Bool
  | .str text => Python.contains text.toList inheritSentinel.toList
  | .list items => mentionsList items
  | .dict items => mentionsItems items
  | _ => false

def mentionsList : List Value → Bool
  | [] => false
  | value :: values => mentions value || mentionsList values

def mentionsItems : List (String × Value) → Bool
  | [] => false
  | (_, value) :: items => mentions value || mentionsItems items

end

/-- No variable mentions the sentinel. -/
def Unmarked (vars : Dict String Value) : Prop := ∀ name v, vars.get? name = some v → mentions v = false

/-- Nothing that is stored mentions the sentinel. -/
structure Stored.Unmarked (stored : Stored) : Prop where
  variableDefaults : Inheritance.Unmarked stored.variableDefaults
  stackVariables : ∀ vars ∈ stored.stackVariables, Inheritance.Unmarked vars
  variableOverrides : ∀ overrides ∈ stored.variableOverrides, Inheritance.Unmarked overrides

/-! ### What is offered under a name -/

/-- A text for a variable: it is taken for a value that asks to inherit, or that equals the default. -/
structure Offer where
  name : String
  text : String
  default : Option Value := none

def Offer.accepts (o : Offer) (value : Value) : Bool :=
  isInheritRequest value || o.default.any fun default ↦ value.equals default

def Offer.settle (value : Option Value) (o : Offer) : Option Value :=
  if o.accepts (value.getD .none) then some (.str o.text) else value

def Offer.take (vars : Dict String Value) (o : Offer) : Dict String Value :=
  if o.accepts (getVariable vars o.name) then vars.set o.name (.str o.text) else vars

def offerOf (field : String) (value : Option String) : List Offer :=
  match given value with
  | some text => [⟨field, text, none⟩]
  | none => []

def inheritedOffers (decrypt : String → Option String) (target : Target) : List Offer :=
  offerOf "ibmcloud_cluster_region" target.region ++
    match target.template with
    | none => []
    | some template =>
      if template.provider ≠ "ibm" then []
      else offerOf "ibmcloud_cluster_region" template.region ++
        offerOf "ibmcloud_resource_group" template.ibmcloudResourceGroup ++
        offerOf "ibmcloud_api_key" ((given template.ibmcloudApiKeyEncrypted).bind decrypt)

def mappedOffers (decrypt : String → Option String) (target : Target) (d : InputDef) : List Offer :=
  if d.name = "" then []
  else
    match sourceText decrypt target d with
    | some text => [⟨d.name, text, some (d.default.getD .none)⟩]
    | none => []

def offers (env : Installation) (release : BlueprintRelease) (target : Target) : List Offer :=
  inheritedOffers env.decrypt target ++ release.inputs.flatMap (mappedOffers env.decrypt target)

theorem fill_eq (vars : Dict String Value) (field : String) (value : Option String) :
    fill vars field value = (offerOf field value).foldl Offer.take vars := by
  unfold fill offerOf
  cases given value with
  | none => rfl
  | some text =>
    dsimp only
    rw [foldl_cons, foldl_nil, Offer.take, Offer.accepts, Option.any_none, Bool.or_false]

theorem applyCredentialTemplateInheritance_eq (decrypt : String → Option String) (target : Target)
    (vars : Dict String Value) : applyCredentialTemplateInheritance decrypt target vars =
      (inheritedOffers decrypt target).foldl Offer.take vars := by
  unfold applyCredentialTemplateInheritance inheritedOffers
  rw [foldl_append, ← fill_eq]
  cases target.template with
  | none => rfl
  | some template =>
    dsimp only
    split
    · rfl
    · rw [foldl_append, foldl_append, ← fill_eq, ← fill_eq, ← fill_eq]
      cases given template.ibmcloudApiKeyEncrypted with
      | none => rfl
      | some encrypted => rfl

theorem applyInputSourceMapping_eq (decrypt : String → Option String) (target : Target)
    (vars : Dict String Value) (d : InputDef) : applyInputSourceMapping decrypt target vars d =
      (mappedOffers decrypt target d).foldl Offer.take vars := by
  unfold applyInputSourceMapping mappedOffers
  split
  · rfl
  · cases sourceText decrypt target d with
    | none =>
      dsimp only
      split <;> rfl
    | some text => rfl

theorem resolvedVariables_eq (env : Installation) (release : BlueprintRelease) (target : Target)
    (vars : Dict String Value) : resolvedVariables env release target vars =
      (offers env release target).foldl Offer.take
        (applyBlueprintInputDefaults env.repr release.inputs vars) := by
  have hmapped (inputs : List InputDef) (vars : Dict String Value) :
      inputs.foldl (applyInputSourceMapping env.decrypt target) vars =
        (inputs.flatMap (mappedOffers env.decrypt target)).foldl Offer.take vars := by
    induction inputs generalizing vars with
    | nil => rfl
    | cons d inputs ih =>
      rw [foldl_cons, flatMap_cons, foldl_append, applyInputSourceMapping_eq, ih]
  rw [resolvedVariables, applyExplicitInputSourceMappings, hmapped,
    applyCredentialTemplateInheritance_eq, offers, foldl_append]

theorem get?_foldl_take (offers : List Offer) (vars : Dict String Value) (name : String) :
    (offers.foldl Offer.take vars).get? name =
      (offers.filter fun o ↦ o.name = name).foldl Offer.settle (vars.get? name) := by
  induction offers generalizing vars with
  | nil => rfl
  | cons o offers ih =>
    rw [foldl_cons, ih, filter_cons]
    by_cases hname : o.name = name
    · subst hname
      rw [if_pos (decide_eq_true rfl), foldl_cons, Offer.take, Offer.settle, getVariable]
      split
      · rw [Dict.get?_set, if_pos rfl]
      · rfl
    · rw [if_neg (by simpa using hname), Offer.take]
      split
      · rw [Dict.get?_set, if_neg (Ne.symm hname)]
      · rfl

theorem isSome_foldl_settle (offers : List Offer) (value : Option Value) :
    (offers.foldl Offer.settle value).isSome = true ↔ value.isSome = true ∨ offers ≠ [] := by
  induction offers generalizing value with
  | nil => simp
  | cons o offers ih =>
    rw [foldl_cons, ih, Offer.settle]
    refine iff_of_true ?_ (Or.inr (cons_ne_nil _ _))
    cases value with
    | none => exact Or.inl rfl
    | some v =>
      refine Or.inl ?_
      split <;> rfl

/-- The offers under a name leave no value that mentions the sentinel: such a value is replaced, and
so is a text that itself mentions it. -/
structure Replaced (offers : List Offer) (value : Option Value) : Prop where
  accepted : ∀ v, value = some v → mentions v = true → ∃ o ∈ offers, o.accepts v = true
  passed : ∀ before o after, offers = before ++ o :: after → mentions (.str o.text) = true →
    o.accepts ((before.foldl Offer.settle value).getD .none) = true →
      ∃ o' ∈ after, o'.accepts (.str o.text) = true

theorem replaced_iff (offers : List Offer) (value : Option Value) : Replaced offers value ↔
    ∀ v, offers.foldl Offer.settle value = some v → mentions v = false := by
  induction offers generalizing value with
  | nil =>
    constructor
    · rintro ⟨haccepted, -⟩ v hv
      refine Bool.eq_false_iff.mpr fun hmentions ↦ ?_
      obtain ⟨o, ho, -⟩ := haccepted v hv hmentions
      cases ho
    · intro h
      refine ⟨fun v hv hmentions ↦ ?_, fun before o after heq ↦ ?_⟩
      · cases (h v hv).symm.trans hmentions
      · cases append_ne_nil_of_right_ne_nil before (cons_ne_nil o after) heq.symm
  | cons o offers ih =>
    rw [foldl_cons, ← ih]
    cases haccepts : o.accepts (value.getD .none) with
    | true =>
      have hsettle : Offer.settle value o = some (.str o.text) := if_pos haccepts
      rw [hsettle]
      constructor
      · rintro ⟨-, hpassed⟩
        refine ⟨fun v hv hmentions ↦ ?_, fun before o' after heq ↦ ?_⟩
        · obtain rfl := Option.some.inj hv
          exact hpassed [] o offers rfl hmentions haccepts
        · have := hpassed (o :: before) o' after (by rw [heq]; rfl)
          rwa [foldl_cons, hsettle] at this
      · rintro ⟨haccepted, hpassed⟩
        refine ⟨fun v hv _ ↦ ⟨o, mem_cons_self, ?_⟩, fun before o' after heq hmentions hat ↦ ?_⟩
        · rw [hv] at haccepts
          exact haccepts
        · cases before with
          | nil =>
            obtain ⟨rfl, rfl⟩ := List.cons.inj heq
            exact haccepted _ rfl hmentions
          | cons o₁ before =>
            obtain ⟨rfl, rfl⟩ := List.cons.inj heq
            rw [foldl_cons, hsettle] at hat
            exact hpassed before o' after rfl hmentions hat
    | false =>
      have hsettle : Offer.settle value o = value := if_neg (by rw [haccepts]; exact Bool.false_ne_true)
      rw [hsettle]
      constructor
      · rintro ⟨haccepted, hpassed⟩
        refine ⟨fun v hv hmentions ↦ ?_, fun before o' after heq ↦ ?_⟩
        · obtain ⟨o', ho', hat⟩ := haccepted v hv hmentions
          rcases mem_cons.mp ho' with rfl | ho'
          · rw [hv] at haccepts
            cases haccepts.symm.trans hat
          · exact ⟨o', ho', hat⟩
        · have := hpassed (o :: before) o' after (by rw [heq]; rfl)
          rwa [foldl_cons, hsettle] at this
      · rintro ⟨haccepted, hpassed⟩
        refine ⟨fun v hv hmentions ↦ ?_, fun before o' after heq hmentions hat ↦ ?_⟩
        · obtain ⟨o', ho', hat⟩ := haccepted v hv hmentions
          exact ⟨o', mem_cons_of_mem o ho', hat⟩
        · cases before with
          | nil =>
            obtain ⟨rfl, rfl⟩ := List.cons.inj heq
            cases haccepts.symm.trans hat
          | cons o₁ before =>
            obtain ⟨rfl, rfl⟩ := List.cons.inj heq
            rw [foldl_cons, hsettle] at hat
            exact hpassed before o' after rfl hmentions hat

/-! ### The value of each variable -/

section

variable (env : Installation) (release : BlueprintRelease) (target : Target)
  (vars : Dict String Value)

def initialValue (inputs : List InputDef) (vars : Dict String Value) (name : String) : Option Value :=
  (vars.get? name).or ((collectBlueprintInputDefaults inputs).get? name)

/-- The value after references to other variables are replaced. -/
def renderedValue (name : String) : Option Value :=
  (initialValue release.inputs vars name).map
    (renderTemplateObj env.repr (initialValue release.inputs vars))

def offersFor (name : String) : List Offer := (offers env release target).filter fun o ↦ o.name = name

def leftValue (name : String) : Option Value :=
  (offersFor env release target name).foldl Offer.settle (renderedValue env release vars name)

end

section

variable {env : Installation} {release : BlueprintRelease} {target : Target}
  {vars : Dict String Value} {name : String}

theorem get?_setDefaults (vars : Dict String Value) (items : List (String × Value)) (name : String) :
    (setDefaults vars items).get? name = (vars.get? name).or (items.lookup name) := by
  induction items generalizing vars with
  | nil => exact Option.or_none.symm
  | cons i items ih =>
    rw [setDefaults, foldl_cons, ← setDefaults, ih, lookup_cons]
    by_cases hname : name = i.1
    · subst hname
      rw [beq_self_eq_true]
      split
      case isTrue hmem =>
        obtain ⟨v, hv⟩ := Dict.mem_iff.mp hmem
        rw [hv, Option.some_or, Option.some_or]
      case isFalse hmem =>
        rw [Dict.get?_set, if_pos rfl, Dict.get?_eq_none_iff.mpr hmem, Option.some_or, Option.none_or]
    · rw [beq_false_of_ne hname]
      split
      · rfl
      · rw [Dict.get?_set, if_neg hname]

theorem get?_applyBlueprintInputDefaults :
    (applyBlueprintInputDefaults env.repr release.inputs vars).get? name =
      renderedValue env release vars name := by
  have hinitial : (setDefaults vars (collectBlueprintInputDefaults release.inputs).items).get? =
      initialValue release.inputs vars := funext (get?_setDefaults vars _)
  unfold applyBlueprintInputDefaults renderedValue
  dsimp only
  rw [Dict.get?_map, hinitial]

theorem get?_resolvedVariables :
    (resolvedVariables env release target vars).get? = leftValue env release target vars := by
  funext name
  rw [resolvedVariables_eq, get?_foldl_take, get?_applyBlueprintInputDefaults]
  rfl

theorem unmarked_resolvedVariables_iff : Unmarked (resolvedVariables env release target vars) ↔
    ∀ name, Replaced (offersFor env release target name) (renderedValue env release vars name) := by
  unfold Unmarked
  simp only [get?_resolvedVariables, leftValue, replaced_iff]

theorem mentionsItems_eq_false {items : List (String × Value)} :
    mentionsItems items = false ↔ ∀ i ∈ items, mentions i.2 = false := by
  induction items with
  | nil => simp [mentionsItems]
  | cons i items ih =>
    obtain ⟨key, value⟩ := i
    rw [mentionsItems, Bool.or_eq_false_iff, ih, forall_mem_cons]

theorem unmarked_iff : Unmarked vars ↔ mentionsItems vars.items = false := by
  rw [mentionsItems_eq_false]
  constructor
  · intro h i hi
    exact h i.1 i.2 (Dict.get?_eq_some_iff.mpr hi)
  · intro h name value hvalue
    exact h (name, value) (Dict.get?_eq_some_iff.mp hvalue)

theorem mentions_of_mem_defaultEntries {value : Value} {entry : String × Value}
    (h : entry ∈ defaultEntries name value) (hvalue : mentions value = false) :
    mentions entry.2 = false := by
  have hflat (hmem : entry ∈ if name.toList.contains '/' then [] else [(name, value)]) :
      mentions entry.2 = false := by
    split at hmem
    · cases hmem
    · obtain rfl := mem_singleton.mp hmem
      exact hvalue
  cases value with
  | dict items =>
    exact mentionsItems_eq_false.mp hvalue entry (mem_of_mem_filter h)
  | none => exact hflat h
  | bool b => exact hflat h
  | int n => exact hflat h
  | float x => exact hflat h
  | str text => exact hflat h
  | list items => exact hflat h

theorem unmarked_extractStackVariableDefaults_iff : Unmarked (extractStackVariableDefaults vars) ↔
    ∀ before key value after, stackEntries vars = before ++ (key, value) :: after →
      mentions value = true → key ∈ after.map Prod.fst := by
  unfold Unmarked extractStackVariableDefaults
  rw [Dict.forall_setAll_iff]
  simp only [Bool.not_eq_false]

theorem Unmarked.extractStackVariableDefaults (h : Unmarked vars) :
    Unmarked (extractStackVariableDefaults vars) := by
  refine unmarked_extractStackVariableDefaults_iff.mpr fun before key value after heq hmentions ↦ ?_
  have hmem : (key, value) ∈ stackEntries vars := by
    rw [heq]
    exact mem_append_right _ mem_cons_self
  obtain ⟨i, hi, hentry⟩ := mem_flatMap.mp hmem
  have hvalue := h i.1 i.2 (Dict.get?_eq_some_iff.mpr hi)
  cases (mentions_of_mem_defaultEntries hentry hvalue).symm.trans hmentions

theorem stackEntries_eq (vars : Dict String Value) :
    stackEntries vars = vars.keys.flatMap fun name ↦ (vars.get? name).elim [] (defaultEntries name) := by
  rw [stackEntries, Dict.keys, flatMap_map]
  refine flatMap_congr fun i hi ↦ ?_
  rw [Dict.get?_eq_some_iff.mpr hi]
  rfl

theorem get?_resolvedInputs (repr : Value → String) (schema : List String)
    (inputs vars : Dict String Value) (name : String) :
    (resolvedInputs repr schema inputs vars).get? name =
      if name ≠ "" ∧ name ∈ schema ∧ (vars.get? name).isSome = true then vars.get? name
      else (inputs.get? name).map (renderTemplateObj repr vars.get?) := by
  unfold resolvedInputs
  rw [← Dict.get?_map]
  generalize inputs.map (renderTemplateObj repr vars.get?) = resolved
  induction schema generalizing resolved with
  | nil => simp
  | cons field schema ih =>
    rw [foldl_cons, ih]
    by_cases hname : name = field
    · subst hname
      by_cases hempty : name = ""
      · subst hempty
        simp
      · cases hget : vars.get? name with
        | none => simp [hempty]
        | some value => simp [hempty]
    · have hstep : ((if field = "" then resolved else
          match vars.get? field with
          | some value => resolved.set field value
          | none => resolved) : Dict String Value).get? name = resolved.get? name := by
        split
        · rfl
        · cases vars.get? field with
          | none => rfl
          | some value => exact (Dict.get?_set ..).trans (if_neg hname)
      rw [hstep]
      simp only [mem_cons, hname, false_or]

end

/-! ### When no sentinel is stored -/

section

variable (env : Installation) (release : BlueprintRelease) (target : Target)
  (vars : Dict String Value)

/-- The input of a module is overwritten by a variable: the schema names it, and it is given, has a
default or has a source. -/
def Taken (m : LibraryModule) (name : String) : Prop :=
  name ≠ "" ∧ name ∈ env.variablesSchema m.id ∧
    ((initialValue release.inputs vars name).isSome = true ∨ offersFor env release target name ≠ [])

def InputsUnmarked (b : ReleaseModule × LibraryModule) : Prop :=
  ∀ name value, b.1.inputs.get? name = some value → ¬ Taken env release target vars b.2 name →
    mentions (renderTemplateObj env.repr (leftValue env release target vars) value) = false

/-- Every variable is rid of the sentinel, and no input of a module brings it in. -/
structure CreatesUnmarked : Prop where
  replaced : ∀ name, Replaced (offersFor env release target name) (renderedValue env release vars name)
  inputs : ∀ b ∈ boundModules env release, InputsUnmarked env release target vars b

/-- So is every variable that overwrites an input of a module; and an entry of the project defaults
that mentions the sentinel is overwritten by a later one. -/
structure AddsUnmarked : Prop where
  defaults : ∀ before key value after,
    ((resolvedVariables env release target vars).keys.flatMap fun name ↦
      (leftValue env release target vars name).elim [] (defaultEntries name)) =
        before ++ (key, value) :: after → mentions value = true → key ∈ after.map Prod.fst
  replaced : ∀ b ∈ boundModules env release, ∀ name, Taken env release target vars b.2 name →
    Replaced (offersFor env release target name) (renderedValue env release vars name)
  inputs : ∀ b ∈ boundModules env release, InputsUnmarked env release target vars b

end

section

variable {env : Installation} {release : BlueprintRelease} {target : Target}
  {vars : Dict String Value} {m : LibraryModule} {name : String} {projectId clusterCount : Nat}
  {s t : ReleaseTable} {stored : Stored}

theorem taken_iff : Taken env release target vars m name ↔
    name ≠ "" ∧ name ∈ env.variablesSchema m.id ∧
      (leftValue env release target vars name).isSome = true := by
  unfold Taken leftValue renderedValue
  rw [isSome_foldl_settle, Option.isSome_map]

theorem get?_overridesOf (b : ReleaseModule × LibraryModule) (name : String) :
    (overridesOf env (resolvedVariables env release target vars) b.1 b.2).get? name =
      if name ≠ "" ∧ name ∈ env.variablesSchema b.2.id ∧
          (leftValue env release target vars name).isSome = true then
        leftValue env release target vars name
      else (b.1.inputs.get? name).map
        (renderTemplateObj env.repr (leftValue env release target vars)) := by
  rw [overridesOf, get?_resolvedInputs, get?_resolvedVariables]

theorem unmarked_overridesOf_iff {b : ReleaseModule × LibraryModule} :
    Unmarked (overridesOf env (resolvedVariables env release target vars) b.1 b.2) ↔
      (∀ name, Taken env release target vars b.2 name →
        Replaced (offersFor env release target name) (renderedValue env release vars name)) ∧
      InputsUnmarked env release target vars b := by
  constructor
  · intro h
    refine ⟨fun name htaken ↦ (replaced_iff _ _).mpr fun value hvalue ↦ h name value ?_,
      fun name value hvalue htaken ↦ h name _ ?_⟩
    · rw [get?_overridesOf, if_pos (taken_iff.mp htaken)]
      exact hvalue
    · rw [get?_overridesOf, if_neg (taken_iff.not.mp htaken), hvalue]
      rfl
  · rintro ⟨hreplaced, hinputs⟩ name value hvalue
    rw [get?_overridesOf] at hvalue
    by_cases htaken : Taken env release target vars b.2 name
    · rw [if_pos (taken_iff.mp htaken)] at hvalue
      exact (replaced_iff _ _).mp (hreplaced name htaken) value hvalue
    · rw [if_neg (taken_iff.not.mp htaken)] at hvalue
      obtain ⟨input, hinput, rfl⟩ := Option.map_eq_some_iff.mp hvalue
      exact hinputs name input hinput htaken

theorem unmarked_variableOverrides_iff {stack : Option (Dict String Value)} :
    (∀ overrides ∈ (storedOf env release (resolvedVariables env release target vars) stack).variableOverrides,
      Unmarked overrides) ↔
    (∀ b ∈ boundModules env release, ∀ name, Taken env release target vars b.2 name →
      Replaced (offersFor env release target name) (renderedValue env release vars name)) ∧
    ∀ b ∈ boundModules env release, InputsUnmarked env release target vars b := by
  unfold storedOf
  rw [forall_mem_map]
  simp only [unmarked_overridesOf_iff]
  exact ⟨fun h ↦ ⟨fun b hb ↦ (h b hb).1, fun b hb ↦ (h b hb).2⟩, fun h b hb ↦ ⟨h.1 b hb, h.2 b hb⟩⟩

theorem createProjectFromRelease_eq_ok
    (h : createProjectFromRelease env release target vars projectId s = .ok (t, stored)) :
    stored = storedOf env release (resolvedVariables env release target vars)
      (some (resolvedVariables env release target vars)) := by
  obtain ⟨_, -, h⟩ := ExceptResult.bind_eq_ok.mp h
  obtain ⟨_, -, h⟩ := ExceptResult.bind_eq_ok.mp h
  exact (Prod.mk.inj (ExceptResult.pure_eq_ok.mp h)).2.symm

theorem addReleaseToProject_eq_ok
    (h : addReleaseToProject env release target vars projectId clusterCount s = .ok (t, stored)) :
    stored = storedOf env release (resolvedVariables env release target vars) none := by
  unfold addReleaseToProject at h
  obtain ⟨_, -, h⟩ := ExceptResult.bind_eq_ok.mp h
  obtain ⟨_, -, h⟩ := ExceptResult.bind_eq_ok.mp h
  obtain ⟨_, -, h⟩ := ExceptResult.bind_eq_ok.mp h
  obtain ⟨_, -, h⟩ := ExceptResult.bind_eq_ok.mp h
  obtain ⟨_, -, h⟩ := ExceptResult.bind_eq_ok.mp h
  obtain ⟨_, -, h⟩ := ExceptResult.bind_eq_ok.mp h
  exact (Prod.mk.inj (ExceptResult.pure_eq_ok.mp h)).2.symm

/-- What is stored is free of the sentinel if and only if every occurrence is replaced under its name
and no input of a module brings one in. -/
theorem sentinel_not_stored_iff (env : Installation) (release : BlueprintRelease) (target : Target)
    (vars : Dict String Value) (projectId clusterCount : Nat) (s t : ReleaseTable) (stored : Stored) :
    (createProjectFromRelease env release target vars projectId s = .ok (t, stored) →
      (stored.Unmarked ↔ CreatesUnmarked env release target vars)) ∧
    (addReleaseToProject env release target vars projectId clusterCount s = .ok (t, stored) →
      (stored.Unmarked ↔ AddsUnmarked env release target vars)) := by
  constructor
  · intro h
    obtain rfl := createProjectFromRelease_eq_ok h
    constructor
    · rintro ⟨-, hstack, hoverrides⟩
      exact ⟨unmarked_resolvedVariables_iff.mp (hstack _ rfl),
        (unmarked_variableOverrides_iff.mp hoverrides).2⟩
    · rintro ⟨hreplaced, hinputs⟩
      have hvars := unmarked_resolvedVariables_iff.mpr hreplaced
      refine ⟨hvars.extractStackVariableDefaults, fun found hfound ↦ ?_,
        unmarked_variableOverrides_iff.mpr ⟨fun _ _ name _ ↦ hreplaced name, hinputs⟩⟩
      obtain rfl := Option.some.inj hfound
      exact hvars
  · intro h
    obtain rfl := addReleaseToProject_eq_ok h
    have hdefaults :=
      @unmarked_extractStackVariableDefaults_iff (resolvedVariables env release target vars)
    rw [stackEntries_eq, get?_resolvedVariables] at hdefaults
    constructor
    · rintro ⟨hentries, -, hoverrides⟩
      obtain ⟨hreplaced, hinputs⟩ := unmarked_variableOverrides_iff.mp hoverrides
      exact ⟨hdefaults.mp hentries, hreplaced, hinputs⟩
    · rintro ⟨hentries, hreplaced, hinputs⟩
      exact ⟨hdefaults.mpr hentries, nofun, unmarked_variableOverrides_iff.mpr ⟨hreplaced, hinputs⟩⟩

end

/-! ### A cluster with an API key -/

def clusterSite : Installation where
  repr _ := ""
  decrypt := some
  limit := 1000
  set := listOrder
  catalog := [⟨⟨"cluster", "ibm/cluster", none⟩, 1, none, true, true, none, []⟩]
  variablesSchema _ := ["ibmcloud_api_key"]
  validate _ _ _ := none

def clusterRelease : BlueprintRelease where
  id := 7
  validationState := "valid"
  releaseState := "imported"
  sourcePath := none
  blueprintName := "cluster"
  modules := [{ id := "c", module := "ibm/cluster", version := none, optional := false, dependsOn := [] }]
  inputs := [{ name := "ibmcloud_api_key" }]
  prerequisites := []

def inheritedKey : Dict String Value := ⟨[("ibmcloud_api_key", .str inheritSentinel)], by decide⟩

def nestedKey : Dict String Value := ⟨[("ibmcloud_api_keys", .list [.str inheritSentinel])], by decide⟩

def ibmTarget : Target := { template := some { provider := "ibm", ibmcloudApiKeyEncrypted := some "key" } }

def storedUnmarked (stored : Stored) : Bool :=
  !mentionsItems stored.variableDefaults.items &&
    stored.stackVariables.all (fun vars ↦ !mentionsItems vars.items) &&
    stored.variableOverrides.all fun overrides ↦ !mentionsItems overrides.items

theorem storedUnmarked_iff {stored : Stored} : storedUnmarked stored = true ↔ stored.Unmarked := by
  simp only [storedUnmarked, Bool.and_eq_true, Bool.not_eq_true', Option.all_eq_true, all_eq_true,
    ← unmarked_iff]
  exact ⟨fun h ↦ ⟨h.1.1, h.1.2, h.2⟩, fun h ↦ ⟨⟨h.variableDefaults, h.stackVariables⟩, h.variableOverrides⟩⟩

/-- With the template the key is inherited on both ways. -/
theorem sentinel_replaced_by_template :
    (∃ t stored, createProjectFromRelease clusterSite clusterRelease ibmTarget inheritedKey 1
        emptyReleaseTable = .ok (t, stored) ∧
      CreatesUnmarked clusterSite clusterRelease ibmTarget inheritedKey) ∧
    ∃ t stored, addReleaseToProject clusterSite clusterRelease ibmTarget inheritedKey 1 0
        emptyReleaseTable = .ok (t, stored) ∧
      AddsUnmarked clusterSite clusterRelease ibmTarget inheritedKey := by
  constructor
  · obtain ⟨⟨t, stored⟩, hcreate, hcheck⟩ := ExceptResult.exists_of_any
      (x := createProjectFromRelease clusterSite clusterRelease ibmTarget inheritedKey 1 emptyReleaseTable)
      (p := fun r ↦ storedUnmarked r.2) (by decide +kernel)
    exact ⟨t, stored, hcreate, ((sentinel_not_stored_iff clusterSite clusterRelease ibmTarget inheritedKey
      1 0 emptyReleaseTable t stored).1 hcreate).mp (storedUnmarked_iff.mp hcheck)⟩
  · obtain ⟨⟨t, stored⟩, hadd, hcheck⟩ := ExceptResult.exists_of_any
      (x := addReleaseToProject clusterSite clusterRelease ibmTarget inheritedKey 1 0 emptyReleaseTable)
      (p := fun r ↦ storedUnmarked r.2) (by decide +kernel)
    exact ⟨t, stored, hadd, ((sentinel_not_stored_iff clusterSite clusterRelease ibmTarget inheritedKey
      1 0 emptyReleaseTable t stored).2 hadd).mp (storedUnmarked_iff.mp hcheck)⟩

/-- Without a template a project is created with the sentinel as the key, and a sentinel inside a list
is added to a project. -/
theorem sentinel_stored :
    (¬ ∀ (env : Installation) (release : BlueprintRelease) (request : Target)
      (vars : Dict String Value) (projectId : Nat) (s t : ReleaseTable) (stored : Stored),
      createProjectFromRelease env release request vars projectId s = .ok (t, stored) →
        stored.Unmarked) ∧
    ¬ ∀ (env : Installation) (release : BlueprintRelease) (project : Target)
      (vars : Dict String Value) (projectId clusterCount : Nat) (s t : ReleaseTable) (stored : Stored),
      addReleaseToProject env release project vars projectId clusterCount s = .ok (t, stored) →
        stored.Unmarked := by
  constructor
  · intro h
    obtain ⟨⟨t, stored⟩, hcreate, hcheck⟩ := ExceptResult.exists_of_any
      (x := createProjectFromRelease clusterSite clusterRelease {} inheritedKey 1 emptyReleaseTable)
      (p := fun r ↦ !storedUnmarked r.2) (by decide +kernel)
    rw [storedUnmarked_iff.mpr (h _ _ _ _ _ _ _ _ hcreate)] at hcheck
    cases hcheck
  · intro h
    obtain ⟨⟨t, stored⟩, hadd, hcheck⟩ := ExceptResult.exists_of_any
      (x := addReleaseToProject clusterSite clusterRelease {} nestedKey 1 0 emptyReleaseTable)
      (p := fun r ↦ !storedUnmarked r.2) (by decide +kernel)
    rw [storedUnmarked_iff.mpr (h _ _ _ _ _ _ _ _ _ hadd)] at hcheck
    cases hcheck

end BnkForge.Inheritance
