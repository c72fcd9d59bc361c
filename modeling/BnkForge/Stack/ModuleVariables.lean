import BnkForge.Catalog.Inheritance
import BnkForge.Lib.ExceptResult
import BnkForge.Stack.AwsSubnets

/-!
# The variables of the modules of a stack

The first loops of `create_project_modules_from_template` and of `_reconcile_stack_modules_from_template`
(`backend/services/stack_deployment_service.py:893–1014` and `165–222`) with
`_build_stack_module_variables` (`126–163`). The one merges the variables of a module in the loop, the other
through the function; the catalog is a parameter, and so is how floats, lists and dicts print. What the loops
do with dependencies afterwards is left out.
-/

namespace BnkForge.StackModules

open Python AwsVpc ExceptResult List

/-! ### Templates and instances -/

structure ModuleDef where
  path : Option String
  /-- `required`, with its default. -/
  required : Value
  /-- `variables`, with its default. -/
  variables_ : Value

structure StackInstance where
  id : Nat
  modules : List ModuleDef
  platformDefaults : Value
  cloudProvider : Option String
  variables_ : Dict String Value

/-- What the loops write into a row of `project_modules`. -/
structure ProjectModule where
  pathInProject : String
  moduleLibraryId : Nat
  variableOverrides : Dict String Value
  deploymentOrder : Nat

/-- `_MANAGED_CLOUD_PROFILE_MAP`. -/
def managedCloudProfileMap : List (String × String) :=
  [("eks", "eks"), ("aws", "eks"), ("aks", "aks"), ("azure", "aks"), ("gke", "gke"), ("gcp", "gke"),
    ("roks", "roks"), ("ibm", "roks")]

/-- `_ONPREM_PROVIDER_PROFILE_MAP`. -/
def onpremProviderProfileMap : List (String × String) :=
  [("on-prem", "generic_onprem"), ("onprem", "generic_onprem"), ("baremetal", "generic_onprem"),
    ("vmware", "generic_onprem"), ("vsphere", "generic_onprem")]

/-- `cloud_provider.strip().lower()`. -/
def providerKey (cloudProvider : String) : String := String.ofList (lower (strip cloudProvider.toList))

/-- `dict(value)`. A list of pairs, which Python takes too, is no value of a template. -/
def asDict : Value → Except NormalizeError (Dict String Value)
  | .dict items => .ok (Dict.empty.setAll items)
  | _ => .error .typeError

/-- `d.update(value)`, as `asDict`. -/
def updateFrom (d : Dict String Value) : Value → Except NormalizeError (Dict String Value)
  | .dict items => .ok (d.setAll items)
  | _ => .error .typeError

/-- `_stack_module_path`; a path that is missing is printed. -/
def stackModulePath (stackId : Nat) (modulePath : Option String) : String :=
  "stack-" ++ toString stackId ++ "/" ++ modulePath.getD "None"

/-! ### The variables of a module -/

section

variable (repr : Value → String)

/-- `_build_stack_module_variables`. -/
def buildStackModuleVariables (inst : StackInstance) (modulePath : String) (moduleVars : Value) :
    Except NormalizeError (Dict String Value) := do
  let finalVars ← asDict moduleVars
  let finalVars ← (
    if inst.platformDefaults.truthy && inst.cloudProvider.any (· ≠ "") then
      let key := providerKey (inst.cloudProvider.getD "")
      let profileKey := (managedCloudProfileMap.lookup key).or (onpremProviderProfileMap.lookup key)
      match profileKey.bind fun key ↦ inst.platformDefaults.items.lookup key with
      | some profile => updateFrom finalVars profile
      | none => .ok finalVars
    else .ok finalVars)
  if inst.variables_.items.isEmpty then .ok finalVars
  else
    let specific :=
      match inst.variables_.get? modulePath with
      | some (.dict items) => (finalVars.setAll items, items.map Prod.fst)
      | _ => (finalVars, [])
    let (finalVars, explicitUserKeys) := inst.variables_.items.foldl (fun acc item ↦
      if !item.1.toList.contains '/' && !item.2.isDict then (acc.1.set item.1 item.2, acc.2 ++ [item.1])
      else acc) specific
    normalizeAwsVpcSubnetCidrs repr modulePath finalVars explicitUserKeys

/-! ### The first loop of a creation -/

/-- The rows of the instance, those that are returned, and the `variable_defaults` of the project. -/
structure Creation where
  rows : List ProjectModule
  createdModules : List ProjectModule
  variableDefaults : Dict String Value

def Creation.add (s : Creation) (inst : StackInstance) (m : ProjectModule) : Creation where
  rows := s.rows ++ [m]
  createdModules := s.createdModules ++ [m]
  variableDefaults :=
    if inst.variables_.items.isEmpty then s.variableDefaults
    else s.variableDefaults.update (Inheritance.extractStackVariableDefaults inst.variables_)

/-- One round of the first loop of `create_project_modules_from_template`; `library` finds the row of a
path. -/
def createOne (library : Option String → Option Nat) (inst : StackInstance) (s : Creation)
    (entry : Nat × ModuleDef) : Except NormalizeError Creation :=
  let modulePath := entry.2.path
  match s.rows.find? fun r ↦ r.pathInProject = stackModulePath inst.id modulePath with
  | some existing => .ok { s with createdModules := s.createdModules ++ [existing] }
  | none =>
    match library modulePath with
    | none => .ok s
    | some libraryModule => do
      -- stack template module defaults
      let finalVars ← updateFrom Dict.empty entry.2.variables_
      -- platform-specific overrides
      let finalVars ← (
        if inst.platformDefaults.truthy && inst.cloudProvider.any (· ≠ "") then
          let key := providerKey (inst.cloudProvider.getD "")
          let profileKey := (managedCloudProfileMap.lookup key).or (onpremProviderProfileMap.lookup key)
          match profileKey.bind fun key ↦ inst.platformDefaults.items.lookup key with
          | some profile => updateFrom finalVars profile
          | none => .ok finalVars
        else .ok finalVars)
      -- variables for this module, then those of the stack
      let finalVars ← (
        if inst.variables_.items.isEmpty then .ok finalVars
        else
          let specific :=
            match modulePath.bind inst.variables_.get? with
            | some (.dict items) => (finalVars.setAll items, items.map Prod.fst)
            | _ => (finalVars, [])
          let (finalVars, explicitUserKeys) := inst.variables_.items.foldl (fun acc item ↦
            if !item.1.toList.contains '/' && !item.2.isDict then
              (acc.1.set item.1 item.2, acc.2 ++ [item.1])
            else acc) specific
          normalizeAwsVpcSubnetCidrs repr (modulePath.getD "None") finalVars explicitUserKeys)
      .ok (s.add inst ⟨stackModulePath inst.id modulePath, libraryModule, finalVars, entry.1⟩)

/-- The loop. -/
def createAll (library : Option String → Option Nat) (inst : StackInstance) (s : Creation) :
    List (Nat × ModuleDef) → Except NormalizeError Creation
  | [] => .ok s
  | entry :: entries => do
    let s ← createOne repr library inst s entry
    createAll library inst s entries

/-- `enumerate(template.modules)`. -/
def entriesOf (inst : StackInstance) : List (Nat × ModuleDef) := inst.modules.zipIdx.map Prod.swap

/-- A module that has to be in the catalog is not, as `verify_template_modules_present` finds. -/
def missingRequired (library : Option String → Option Nat) (d : ModuleDef) : Bool :=
  d.path.any (· ≠ "") && d.required.truthy && (library d.path).isNone

/-- The first loop of `create_project_modules_from_template`, `none` where the template has no modules or
the catalog not all that it has to have. -/
def createProjectModules (library : Option String → Option Nat) (inst : StackInstance) (s : Creation) :
    Option (Except NormalizeError Creation) :=
  if inst.modules.isEmpty || inst.modules.any (missingRequired library) then none
  else some (createAll repr library inst { s with createdModules := [] } (entriesOf inst))

/-! ### The first loop of a reconciliation -/

/-- Why a reconciliation does not go on. -/
inductive ReconcileError
  | notInLibrary (modulePath : String)
  | raised (e : NormalizeError)

/-- The keys of `module_map` and the rows that were created. -/
structure Reconciliation where
  known : List String
  createdModules : List ProjectModule

/-- One round of the first loop of `_reconcile_stack_modules_from_template`. -/
def reconcileOne (library : Option String → Option Nat) (inst : StackInstance) (s : Reconciliation)
    (entry : Nat × ModuleDef) : Except ReconcileError Reconciliation :=
  match entry.2.path with
  | none => .ok s
  | some modulePath =>
    if modulePath = "" ∨ modulePath ∈ s.known then .ok s
    else
      match entry.2.required with
      | .bool false => .ok s
      | _ =>
        match library (some modulePath) with
        | none => .error (.notInLibrary modulePath)
        | some libraryModule =>
          match buildStackModuleVariables repr inst modulePath entry.2.variables_ with
          | .error e => .error (.raised e)
          | .ok finalVars =>
            .ok
              { known := s.known ++ [modulePath]
                createdModules := s.createdModules ++
                  [⟨stackModulePath inst.id modulePath, libraryModule, finalVars, entry.1⟩] }

/-- The loop. -/
def reconcileAll (library : Option String → Option Nat) (inst : StackInstance) (s : Reconciliation) :
    List (Nat × ModuleDef) → Except ReconcileError Reconciliation
  | [] => .ok s
  | entry :: entries => do
    let s ← reconcileOne repr library inst s entry
    reconcileAll library inst s entries

/-- `removeprefix` of the prefix of the paths of an instance. -/
def withoutPrefix (stackId : Nat) (path : String) : String :=
  if (stackModulePath stackId (some "")).toList.isPrefixOf path.toList then
    String.ofList (path.toList.drop (stackModulePath stackId (some "")).length)
  else path

/-- The first loop of `_reconcile_stack_modules_from_template`: the rows that it adds to those that the
instance has. -/
def reconcileStackModules (library : Option String → Option Nat) (inst : StackInstance)
    (existingModules : List ProjectModule) : Except ReconcileError (List ProjectModule) :=
  (reconcileAll repr library inst ⟨existingModules.map fun m ↦ withoutPrefix inst.id m.pathInProject, []⟩
    (entriesOf inst)).map Reconciliation.createdModules

/-! ### The variables are the same -/

section

variable (library : Option String → Option Nat) (inst : StackInstance)

theorem createOne_eq {s : Creation} {i libraryModule : Nat} {d : ModuleDef} {path : String}
    (hpath : d.path = some path)
    (hnew : s.rows.find? (fun r ↦ r.pathInProject = stackModulePath inst.id (some path)) = none)
    (hlibrary : library (some path) = some libraryModule) :
    createOne repr library inst s (i, d) =
      (buildStackModuleVariables repr inst path d.variables_).map fun finalVars ↦
        s.add inst ⟨stackModulePath inst.id (some path), libraryModule, finalVars, i⟩ := by
  have hstart : updateFrom Dict.empty d.variables_ = asDict d.variables_ := by
    cases d.variables_ <;> rfl
  simp only [createOne, buildStackModuleVariables, hpath, hnew, hlibrary, hstart, Option.bind_some,
    Option.getD_some]
  cases asDict d.variables_ with
  | error e => rfl
  | ok vars => exact bind_bind_ok

variable {repr library inst}

/-- A row that is made of an entry of the template, with the variables that the function gives. -/
structure MadeOf (repr : Value → String) (library : Option String → Option Nat) (inst : StackInstance)
    (entry : Nat × ModuleDef) (m : ProjectModule) : Prop where
  pathInProject : m.pathInProject = stackModulePath inst.id entry.2.path
  moduleLibraryId : library entry.2.path = some m.moduleLibraryId
  deploymentOrder : m.deploymentOrder = entry.1
  variableOverrides : ∀ path, entry.2.path = some path →
    buildStackModuleVariables repr inst path entry.2.variables_ = .ok m.variableOverrides

theorem rows_createOne {s s' : Creation} {entry : Nat × ModuleDef}
    (h : createOne repr library inst s entry = .ok s') :
    s'.rows = s.rows ∨ ∃ m, s'.rows = s.rows ++ [m] ∧ MadeOf repr library inst entry m := by
  obtain ⟨i, d⟩ := entry
  cases hfind : s.rows.find? fun r ↦ r.pathInProject = stackModulePath inst.id d.path with
  | some existing =>
    rw [createOne] at h
    simp only [hfind, Except.ok.injEq] at h
    exact Or.inl (by rw [← h])
  | none =>
    cases hlibrary : library d.path with
    | none =>
      rw [createOne] at h
      simp only [hfind, hlibrary, Except.ok.injEq] at h
      exact Or.inl (by rw [← h])
    | some libraryModule =>
      cases hpath : d.path with
      | some path =>
        rw [hpath] at hfind hlibrary
        rw [createOne_eq repr library inst hpath hfind hlibrary] at h
        cases hbuild : buildStackModuleVariables repr inst path d.variables_ with
        | error e =>
          rw [hbuild] at h
          cases h
        | ok vars =>
          rw [hbuild] at h
          refine Or.inr ⟨_, by rw [← Except.ok.inj h]; rfl, by rw [hpath], by rwa [hpath], rfl, ?_⟩
          intro path' hpath'
          obtain rfl := Option.some.inj (hpath.symm.trans hpath')
          exact hbuild
      | none =>
        rw [createOne] at h
        simp only [hfind, hlibrary] at h
        obtain ⟨vars, -, h⟩ := bind_eq_ok.mp h
        obtain ⟨vars, -, h⟩ := bind_eq_ok.mp h
        obtain ⟨vars, -, h⟩ := bind_eq_ok.mp h
        refine Or.inr ⟨_, by rw [← Except.ok.inj h]; rfl, rfl, hlibrary, rfl, ?_⟩
        intro path' hpath'
        rw [hpath] at hpath'
        cases hpath'

theorem exists_row_createOne {s s' : Creation} {entry : Nat × ModuleDef}
    (h : createOne repr library inst s entry = .ok s') (hlibrary : (library entry.2.path).isSome) :
    ∃ m ∈ s'.rows, m.pathInProject = stackModulePath inst.id entry.2.path := by
  cases hfind : s.rows.find? fun r ↦ r.pathInProject = stackModulePath inst.id entry.2.path with
  | some existing =>
    rw [createOne] at h
    simp only [hfind, Except.ok.injEq] at h
    refine ⟨existing, ?_, by simpa using find?_some hfind⟩
    rw [← h]
    exact mem_of_find?_eq_some hfind
  | none =>
    obtain ⟨libraryModule, hlibrary⟩ := Option.isSome_iff_exists.mp hlibrary
    rw [createOne] at h
    simp only [hfind, hlibrary] at h
    obtain ⟨vars, -, h⟩ := bind_eq_ok.mp h
    obtain ⟨vars, -, h⟩ := bind_eq_ok.mp h
    obtain ⟨vars, -, h⟩ := bind_eq_ok.mp h
    rw [← Except.ok.inj h]
    exact ⟨_, mem_append_right _ mem_cons_self, rfl⟩

theorem rows_createAll {entries : List (Nat × ModuleDef)} {s s' : Creation}
    (h : createAll repr library inst s entries = .ok s') :
    s.rows ⊆ s'.rows ∧ (∀ m ∈ s'.rows, m ∈ s.rows ∨ ∃ entry ∈ entries, MadeOf repr library inst entry m) ∧
      ∀ entry ∈ entries, (library entry.2.path).isSome →
        ∃ m ∈ s'.rows, m.pathInProject = stackModulePath inst.id entry.2.path := by
  induction entries generalizing s with
  | nil =>
    obtain rfl := Except.ok.inj h
    exact ⟨List.Subset.refl _, fun m hm ↦ Or.inl hm, by simp⟩
  | cons entry entries ih =>
    obtain ⟨t, hone, hrest⟩ := bind_eq_ok.mp h
    obtain ⟨hsub, hmade, hpaths⟩ := ih hrest
    have hkept : s.rows ⊆ t.rows ∧ ∀ m ∈ t.rows, m ∈ s.rows ∨ MadeOf repr library inst entry m := by
      rcases rows_createOne hone with heq | ⟨m, heq, hm⟩
      · rw [heq]
        exact ⟨List.Subset.refl _, fun m hm ↦ Or.inl hm⟩
      · rw [heq]
        refine ⟨subset_append_left _ _, fun m' hm' ↦ ?_⟩
        rcases mem_append.mp hm' with hm' | hm'
        · exact Or.inl hm'
        · obtain rfl := mem_singleton.mp hm'
          exact Or.inr hm
    refine ⟨List.Subset.trans hkept.1 hsub, fun m hm ↦ ?_, forall_mem_cons.mpr ⟨fun hlibrary ↦ ?_, hpaths⟩⟩
    · rcases hmade m hm with hm | ⟨e, he, hm⟩
      · exact (hkept.2 m hm).imp_right fun hm ↦ ⟨entry, mem_cons_self, hm⟩
      · exact Or.inr ⟨e, mem_cons_of_mem _ he, hm⟩
    · obtain ⟨m, hm, hpath⟩ := exists_row_createOne hone hlibrary
      exact ⟨m, hsub hm, hpath⟩

theorem createdModules_reconcileOne {s s' : Reconciliation} {entry : Nat × ModuleDef}
    (h : reconcileOne repr library inst s entry = .ok s') :
    s'.createdModules = s.createdModules ∨
      ∃ m path, s'.createdModules = s.createdModules ++ [m] ∧ entry.2.path = some path ∧
        MadeOf repr library inst entry m := by
  obtain ⟨i, d⟩ := entry
  unfold reconcileOne at h
  split at h
  · exact Or.inl (by rw [← Except.ok.inj h])
  · next path hpath =>
    split at h
    · exact Or.inl (by rw [← Except.ok.inj h])
    · split at h
      · exact Or.inl (by rw [← Except.ok.inj h])
      · split at h
        · cases h
        · next libraryModule hlibrary =>
          split at h
          · cases h
          · next vars hbuild =>
            refine Or.inr ⟨_, path, by rw [← Except.ok.inj h], hpath, by rw [hpath], by rw [hpath, hlibrary], rfl, ?_⟩
            intro path' hpath'
            obtain rfl := Option.some.inj (hpath.symm.trans hpath')
            exact hbuild

theorem createdModules_reconcileAll {entries : List (Nat × ModuleDef)} {s s' : Reconciliation}
    (h : reconcileAll repr library inst s entries = .ok s') :
    ∀ m ∈ s'.createdModules, m ∈ s.createdModules ∨
      ∃ entry ∈ entries, ∃ path, entry.2.path = some path ∧ MadeOf repr library inst entry m := by
  induction entries generalizing s with
  | nil =>
    obtain rfl := Except.ok.inj h
    exact fun m hm ↦ Or.inl hm
  | cons entry entries ih =>
    obtain ⟨t, hone, hrest⟩ := bind_eq_ok.mp h
    intro m hm
    rcases ih hrest m hm with hm | ⟨e, he, hmade⟩
    · rcases createdModules_reconcileOne hone with heq | ⟨m', path, heq, hpath, hmade⟩
      · rw [heq] at hm
        exact Or.inl hm
      · rw [heq] at hm
        rcases mem_append.mp hm with hm | hm
        · exact Or.inl hm
        · obtain rfl := mem_singleton.mp hm
          exact Or.inr ⟨entry, mem_cons_self, path, hpath, hmade⟩
    · exact Or.inr ⟨e, mem_cons_of_mem _ he, hmade⟩

theorem eq_of_mem_entriesOf {e e' : Nat × ModuleDef} (he : e ∈ entriesOf inst) (he' : e' ∈ entriesOf inst)
    (h : e.1 = e'.1) : e = e' := by
  obtain ⟨⟨d, i⟩, hmem, rfl⟩ := mem_map.mp he
  obtain ⟨⟨d', i'⟩, hmem', rfl⟩ := mem_map.mp he'
  have hd := mk_mem_zipIdx_iff_getElem?.mp hmem
  have hd' := mk_mem_zipIdx_iff_getElem?.mp hmem'
  obtain rfl : i = i' := h
  rw [hd] at hd'
  rw [Option.some.inj hd']

theorem eq_of_stackModulePath_eq {e e' : Nat × ModuleDef} (he : e ∈ entriesOf inst) (he' : e' ∈ entriesOf inst)
    (hnodup : (inst.modules.map fun d ↦ stackModulePath inst.id d.path).Nodup)
    (h : stackModulePath inst.id e.2.path = stackModulePath inst.id e'.2.path) : e = e' := by
  refine eq_of_mem_entriesOf he he' ?_
  obtain ⟨⟨d, i⟩, hmem, rfl⟩ := mem_map.mp he
  obtain ⟨⟨d', i'⟩, hmem', rfl⟩ := mem_map.mp he'
  have hd := mk_mem_zipIdx_iff_getElem?.mp hmem
  have hd' := mk_mem_zipIdx_iff_getElem?.mp hmem'
  have hpath : (inst.modules.map fun d ↦ stackModulePath inst.id d.path)[i]? =
      (inst.modules.map fun d ↦ stackModulePath inst.id d.path)[i']? := by
    rw [getElem?_map, getElem?_map, hd, hd']
    exact congrArg some h
  obtain ⟨hlt, -⟩ := List.getElem?_eq_some_iff.mp hd
  exact (getElem?_inj (by rwa [length_map]) hnodup).mp hpath

theorem MadeOf.unique {entry : Nat × ModuleDef} {m m' : ProjectModule} {path : String}
    (hpath : entry.2.path = some path) (h : MadeOf repr library inst entry m)
    (h' : MadeOf repr library inst entry m') : m = m' := by
  have hlibrary := Option.some.inj (h.moduleLibraryId.symm.trans h'.moduleLibraryId)
  have hvars := Except.ok.inj ((h.variableOverrides path hpath).symm.trans (h'.variableOverrides path hpath))
  have hplace := h.pathInProject.trans h'.pathInProject.symm
  have horder := h.deploymentOrder.trans h'.deploymentOrder.symm
  cases m
  cases m'
  simp_all


/-- Creation and reconciliation give a module of a stack the same variables: where a creation makes a row, it
has the variables of the function that the reconciliation calls, and the rows that both make of an entry of the
template are the same. So is, where the paths of the template are distinct, every row that a reconciliation
adds. -/
theorem creation_and_reconciliation_agree (repr : Value → String) (library : Option String → Option Nat)
    (inst : StackInstance) :
    (∀ s i libraryModule d path, d.path = some path →
        s.rows.find? (fun r ↦ r.pathInProject = stackModulePath inst.id (some path)) = none →
        library (some path) = some libraryModule →
        createOne repr library inst s (i, d) =
          (buildStackModuleVariables repr inst path d.variables_).map fun finalVars ↦
            s.add inst ⟨stackModulePath inst.id (some path), libraryModule, finalVars, i⟩) ∧
      ∀ existing created variableDefaults fresh,
        reconcileStackModules repr library inst existing = .ok created →
        createProjectModules repr library inst ⟨[], [], variableDefaults⟩ = some (.ok fresh) →
          (∀ m ∈ created, ∀ r ∈ fresh.rows, m.deploymentOrder = r.deploymentOrder → m = r) ∧
          ((inst.modules.map fun d ↦ stackModulePath inst.id d.path).Nodup →
            ∀ m ∈ created, m ∈ fresh.rows) := by
  refine ⟨fun s i libraryModule d path ↦ createOne_eq repr library inst,
    fun existing created variableDefaults fresh hreconcile hcreate ↦ ?_⟩
  have hcreated : ∀ m ∈ created, ∃ entry ∈ entriesOf inst, ∃ path, entry.2.path = some path ∧
      MadeOf repr library inst entry m := by
    rw [reconcileStackModules] at hreconcile
    cases hall : reconcileAll repr library inst
      ⟨existing.map fun m ↦ withoutPrefix inst.id m.pathInProject, []⟩ (entriesOf inst) with
    | error e =>
      rw [hall] at hreconcile
      cases hreconcile
    | ok t =>
      rw [hall] at hreconcile
      obtain rfl := Except.ok.inj hreconcile
      intro m hm
      exact (createdModules_reconcileAll hall m hm).resolve_left List.not_mem_nil
  rw [createProjectModules] at hcreate
  split at hcreate
  · cases hcreate
  · obtain ⟨-, hfresh, hpaths⟩ := rows_createAll (Option.some.inj hcreate)
    have hunique : ∀ m ∈ created, ∀ r ∈ fresh.rows, m.deploymentOrder = r.deploymentOrder → m = r := by
      intro m hm r hr horder
      obtain ⟨entry, hentry, path, hpath, hmade⟩ := hcreated m hm
      obtain ⟨entry', hentry', hmade'⟩ := (hfresh r hr).resolve_left List.not_mem_nil
      rw [hmade.deploymentOrder, hmade'.deploymentOrder] at horder
      obtain rfl := eq_of_mem_entriesOf hentry hentry' horder
      exact hmade.unique hpath hmade'
    refine ⟨hunique, fun hnodup m hm ↦ ?_⟩
    obtain ⟨entry, hentry, path, hpath, hmade⟩ := hcreated m hm
    obtain ⟨r, hr, hplace⟩ := hpaths entry hentry (by rw [hmade.moduleLibraryId]; rfl)
    obtain ⟨entry', hentry', hmade'⟩ := (hfresh r hr).resolve_left List.not_mem_nil
    obtain rfl := eq_of_stackModulePath_eq hentry hentry' hnodup (hplace.symm.trans hmade'.pathInProject)
    rw [hmade.unique hpath hmade']
    exact hr


/-- A stack of one module, whose variable comes from the template, the platform and the user. -/
def sampleStack : StackInstance where
  id := 7
  modules := [⟨some "k8s/a", .bool true, .dict [("x", .int 1)]⟩]
  platformDefaults := .dict [("eks", .dict [("x", .int 2)])]
  cloudProvider := some "AWS"
  variables_ := Dict.empty.set "k8s/a" (.dict [("x", .int 3)])

/-- The row that is added to an empty stack is that of a creation. -/
theorem backfilled_row_of_creation : ∃ created fresh,
    reconcileStackModules (fun _ ↦ "") (fun _ ↦ some 4) sampleStack [] = .ok created ∧
      createProjectModules (fun _ ↦ "") (fun _ ↦ some 4) sampleStack ⟨[], [], Dict.empty⟩ = some (.ok fresh) ∧
      created.length = 1 ∧ ∀ m ∈ created, m ∈ fresh.rows :=
  ⟨_, _, rfl, rfl, rfl, ((creation_and_reconciliation_agree (fun _ ↦ "") (fun _ ↦ some 4) sampleStack).2
    [] _ Dict.empty _ rfl rfl).2 (List.nodup_singleton _)⟩

end

end

end BnkForge.StackModules
