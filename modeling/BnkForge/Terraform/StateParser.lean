import BnkForge.Lib.Dict
import BnkForge.Lib.ExceptResult
import BnkForge.Lib.PythonEquality
import BnkForge.Lib.PythonRecord

/-!
# The graph of a Terraform state

`TerraformStateParser` reads the resources of a state file and draws a graph of them. The nodes of a
version 4 state are named by type and name alone, while its dependencies are full addresses
(`isGraphOf_iff`).
-/

namespace BnkForge.Terraform

open Python ExceptResult List

/-! ### Reading the resources -/

/-- An instance of a resource, as far as the graph shows it. -/
structure ParsedInstance where
  dependencies : Value
  keyAttributes : Dict String Value

structure ParsedResource where
  fullAddress : String
  type : Value
  name : Value
  provider : String
  mode : Value
  instances : List ParsedInstance

/-- Attributes that are shown for all resources. -/
def commonKeys : List String := ["id", "arn", "name", "tags", "created_time", "creation_date"]

/-- Attributes that are shown for a type of resources. -/
def typeSpecificAttrs : List (String × List String) :=
  [("aws_vpc", ["cidr_block", "enable_dns_hostnames", "enable_dns_support"]),
    ("aws_subnet", ["vpc_id", "cidr_block", "availability_zone"]),
    ("aws_instance", ["instance_type", "ami", "public_ip", "private_ip"]),
    ("aws_security_group", ["vpc_id", "description"]),
    ("aws_s3_bucket", ["bucket", "region", "versioning"]),
    ("aws_route_table", ["vpc_id"]),
    ("aws_internet_gateway", ["vpc_id"]),
    ("aws_nat_gateway", ["subnet_id", "allocation_id"]),
    ("aws_lb", ["dns_name", "load_balancer_type"]),
    ("aws_db_instance", ["engine", "engine_version", "instance_class", "endpoint"]),
    ("aws_iam_role", ["arn", "assume_role_policy"])]

/-- `if key in attributes: key_attrs[key] = attributes[key]`. A text or a list that has the key in it
cannot be subscripted with it. -/
def attributeAt (attributes : Value) (key : String) : Except Raised (Option (String × Value)) :=
  match attributes with
  | .dict items => .ok ((items.lookup key).map (Prod.mk key))
  | .list items => if items.any (·.isText key) then .error .typeError else .ok none
  | .str text => if contains text.toList key.toList then .error .typeError else .ok none
  | _ => .error .typeError

/-- The attributes of a type; `resource_type in type_specific_attrs` takes its hash. -/
def typeKeys (resourceType : Value) : Except Raised (List String) :=
  match resourceType with
  | .str type => .ok ((typeSpecificAttrs.lookup type).getD [])
  | _ => if resourceType.hashable then .ok [] else .error .typeError

/-- `_extract_key_attributes`. -/
def extractKeyAttributes (resourceType attributes : Value) : Except Raised (Dict String Value) := do
  let common ← commonKeys.mapM (attributeAt attributes)
  let specific ← (← typeKeys resourceType).mapM (attributeAt attributes)
  return Dict.empty.setAll (common ++ specific).reduceOption

/-- `text.split(separator)[-1].rstrip('"]')`. -/
def lastPart (separator : Char) (text : List Char) : String :=
  let part := ((text.splitOn separator).getLast?).getD []
  String.ofList (part.reverse.dropWhile fun c ↦ c = '"' ∨ c = ']').reverse

/-- The name of a provider: `provider["registry.terraform.io/hashicorp/aws"]` is that of `aws`. -/
def providerName (text : List Char) : String :=
  let text := if contains text "provider[".toList ∧ '"' ∈ text then ((text.splitOn '"')[1]?).getD [] else text
  lastPart '/' text

/-- The text of a provider; anything else has no `split`. -/
def providerText : Value → Except Raised (List Char)
  | .str text => .ok text.toList
  | _ => .error .attributeError

section

variable (repr : Value → String)

/-- The instance of a version 4 state. -/
def parseV4Instance (resourceType inst : Value) : Except Raised ParsedInstance := do
  let dependencies ← getOr inst "dependencies" (.list [])
  let attributes ← getOr inst "attributes" (.dict [])
  return ⟨dependencies, ← extractKeyAttributes resourceType attributes⟩

/-- A resource of a version 4 state. -/
def parseV4Resource (resource : Value) : Except Raised ParsedResource := do
  let provider ← providerText (← getOr resource "provider" (.str ""))
  let type ← resource.get? "type"
  let name ← resource.get? "name"
  let mode ← getOr resource "mode" (.str "managed")
  let instances ← (← getOr resource "instances" (.list [])).iterate
  return ⟨type.toText repr ++ "." ++ name.toText repr, type, name, providerName provider, mode,
    ← instances.mapM (parseV4Instance type)⟩

/-- `_parse_v4_resources`: a resource that cannot be read is left out. -/
def parseV4Resources (resources : Value) : Except Raised (List ParsedResource) := do
  return (← resources.iterate).filterMap fun resource ↦ (parseV4Resource repr resource).toOption

/-- `'.'.join(module_path + [resource_key]) if module_path else resource_key`. -/
def v3Address (modulePath : Value) (resourceKey : String) : Except Raised String :=
  if modulePath.truthy then
    match modulePath with
    | .list parts =>
      if parts.all Value.isStr then .ok (".".intercalate (parts.map textOf ++ [resourceKey]))
      else .error .typeError
    | _ => .error .typeError
  else .ok resourceKey

/-- The instance of a version 3 state. -/
def parseV3Instances (resourceType : String) (resourceData : Value) : Except Raised (List ParsedInstance) := do
  let primary ← getOr resourceData "primary" (.dict [])
  if primary.truthy then
    let attributes ← getOr primary "attributes" (.dict [])
    let dependencies ← getOr resourceData "depends_on" (.list [])
    return [⟨dependencies, ← extractKeyAttributes (.str resourceType) attributes⟩]
  else return []

/-- A resource of a version 3 state; its key is made of its type and its name. -/
def parseV3Resource (modulePath : Value) (resourceKey : String) (resourceData : Value) :
    Except Raised ParsedResource := do
  let type := String.ofList (resourceKey.toList.takeWhile (· ≠ '.'))
  let name := String.ofList (resourceKey.toList.dropWhile (· ≠ '.')).tail
  let provider ← providerText (← getOr resourceData "provider" (.str ""))
  let fullAddress ← v3Address modulePath resourceKey
  let mode ← getOr resourceData "type" (.str "managed")
  return ⟨fullAddress, .str type, .str name, lastPart '.' provider, mode,
    ← parseV3Instances type resourceData⟩

/-- `_parse_v3_resources`. -/
def parseV3Resources (resources modulePath : Value) : Except Raised (List ParsedResource) := do
  return (← itemsOf resources).filterMap fun i ↦ (parseV3Resource modulePath i.1 i.2).toOption

/-- `extract_resources`, for the version that `parse` has read. -/
def extractResources (version stateData : Value) : Except Raised (List ParsedResource) := do
  if !stateData.truthy then return []
  else if version.equals (.int 4) then parseV4Resources repr (← getOr stateData "resources" (.list []))
  else if version.equals (.int 3) then
    let modules ← (← getOr stateData "modules" (.list [])).iterate
    let resources ← modules.mapM fun m ↦ do
      let modulePath ← getOr m "path" (.list [])
      parseV3Resources (← getOr m "resources" (.dict [])) modulePath
    return resources.flatten
  else return []

/-! ### The graph -/

structure Edge where
  source : String
  target : Value
  type : String

structure Node where
  id : String
  label : Value
  type : Value
  provider : String
  mode : Value
  instanceCount : Nat
  keyAttributes : Option (Dict String Value)

/-- What `build_dependency_graph` returns. -/
structure Graph where
  nodes : List Node
  edges : List Edge

def edgesOf (resource : ParsedResource) : Except Raised (List Edge) := do
  let edges ← resource.instances.mapM fun inst ↦ do
    return (← inst.dependencies.iterate).map fun dep ↦ ⟨resource.fullAddress, dep, "depends_on"⟩
  return edges.flatten

/-- `extract_dependencies`. -/
def extractDependencies (version stateData : Value) : Except Raised (List Edge) := do
  let edges ← (← extractResources repr version stateData).mapM edgesOf
  return edges.flatten

def nodeOf (resource : ParsedResource) : Node :=
  ⟨resource.fullAddress, resource.name, resource.type, resource.provider, resource.mode,
    resource.instances.length, resource.instances.head?.map ParsedInstance.keyAttributes⟩

/-- `build_dependency_graph`. -/
def buildDependencyGraph (version stateData : Value) : Except Raised Graph := do
  let resources ← extractResources repr version stateData
  let dependencies ← extractDependencies repr version stateData
  return ⟨resources.map nodeOf, dependencies⟩

end

/-! ### States -/

/-- What tells the resources of a state apart. The root module has no address. -/
structure Address where
  moduleAddress : String
  mode : String
  type : String
  name : String
  deriving DecidableEq

def Address.full (a : Address) : String :=
  (if a.moduleAddress.isEmpty then "" else a.moduleAddress ++ ".") ++
    (if a.mode = "data" then "data." else "") ++ (a.type ++ "." ++ a.name)

/-- The address of a resource of a version 4 state. -/
def addressOf (resource : Value) : Address :=
  ⟨textOf (resource.get "module"), textOf (resource.get "mode"), textOf (resource.get "type"),
    textOf (resource.get "name")⟩

def dependenciesOf (resource : Value) : List String :=
  (elementsOf (resource.get "instances")).flatMap fun inst ↦
    (elementsOf (inst.get "dependencies")).map textOf

def resourcesOf (stateData : Value) : List Value := elementsOf (stateData.get "resources")

/-- An instance of a version 4 state: its attributes are a dict, its dependencies are texts, and both
may be left out. -/
structure IsInstance (inst : Value) : Prop where
  isDict : inst.isDict
  attributes : inst.items.lookup "attributes" = none ∨ (inst.get "attributes").isDict
  dependencies : inst.items.lookup "dependencies" = none ∨ (inst.get "dependencies").isList
  isText : ∀ dep ∈ elementsOf (inst.get "dependencies"), dep.isStr

/-- A resource of a version 4 state. Types are identifiers: there is no dot in them. -/
structure IsResource (resource : Value) : Prop where
  moduleAddress : (resource.get "module").isStr ∨ (resource.get "module").isNone
  mode : (resource.get "mode").isStr
  type : (resource.get "type").isStr
  name : (resource.get "name").isStr
  provider : (resource.get "provider").isStr
  instances : (resource.get "instances").isList
  isInstance : ∀ inst ∈ elementsOf (resource.get "instances"), IsInstance inst
  identifier : '.' ∉ (addressOf resource).type.toList

/-- A version 4 state whose resources have distinct addresses, and whose dependencies name resources
of the state. -/
structure IsState (stateData : Value) : Prop where
  version : stateData.get "version" = .int 4
  resources : (stateData.get "resources").isList
  isResource : ∀ r ∈ resourcesOf stateData, IsResource r
  identified : ((resourcesOf stateData).map addressOf).Nodup
  named : ∀ r ∈ resourcesOf stateData, ∀ dep ∈ dependenciesOf r,
    ∃ r' ∈ resourcesOf stateData, (addressOf r').full = dep

def Graph.idAt (g : Graph) (i : Nat) : Option String := g.nodes[i]?.map Node.id

def dependencyPairs (resources : List Value) : List (Nat × String) :=
  resources.zipIdx.flatMap fun i ↦ (dependenciesOf i.1).map (Prod.mk i.2)

/-- The edge goes from the node of the depending resource to the node of the named one. -/
structure Joins (resources : List Value) (g : Graph) (d : Nat × String) (e : Edge) : Prop where
  source : g.idAt d.1 = some e.source
  target : ∀ i r, resources[i]? = some r → (addressOf r).full = d.2 →
    ∃ id, g.idAt i = some id ∧ e.target = .str id

/-- The graph has a node of its own for each resource, and an edge for each dependency. -/
structure IsGraphOf (resources : List Value) (g : Graph) : Prop where
  nodes : g.nodes.length = resources.length
  distinct : (g.nodes.map Node.id).Nodup
  edges : List.Forall₂ (Joins resources g) (dependencyPairs resources) g.edges

/-- No two resources have one type and name, and only managed resources of the root module are
depended on. -/
structure RootManaged (resources : List Value) : Prop where
  distinct : (resources.map fun r ↦ ((addressOf r).type, (addressOf r).name)).Nodup
  targets : ∀ r ∈ resources, ∀ r' ∈ resources, (addressOf r').full ∈ dependenciesOf r →
    (addressOf r').moduleAddress = "" ∧ (addressOf r').mode ≠ "data"

/-! ### The graph of a state -/

variable {repr : Value → String} {resource attributes stateData : Value} {resources : List Value}

def nodeId (a : Address) : String := a.type ++ "." ++ a.name

theorem exists_attributeAt (h : attributes.isDict) (keys : List String) :
    ∃ found, keys.mapM (attributeAt attributes) = .ok found :=
  exists_mapM fun key _ ↦ by
    cases attributes with
    | dict items => exact ⟨_, rfl⟩
    | _ => cases h

theorem exists_extractKeyAttributes {resourceType : Value} (htype : resourceType.isStr)
    (h : attributes.isDict) : ∃ found, extractKeyAttributes resourceType attributes = .ok found := by
  obtain ⟨type, rfl⟩ : ∃ type, resourceType = .str type := by
    cases resourceType with
    | str type => exact ⟨type, rfl⟩
    | _ => cases htype
  obtain ⟨common, hcommon⟩ := exists_attributeAt h commonKeys
  obtain ⟨specific, hspecific⟩ := exists_attributeAt h ((typeSpecificAttrs.lookup type).getD [])
  refine ⟨Dict.empty.setAll (common ++ specific).reduceOption, ?_⟩
  rw [extractKeyAttributes, hcommon, ok_bind, typeKeys, ok_bind, hspecific]
  rfl

theorem parseV4Instance_eq {resourceType inst : Value} (htype : resourceType.isStr) (h : IsInstance inst) :
    ∃ found, parseV4Instance resourceType inst = .ok found ∧ found.dependencies.iterate =
      .ok (elementsOf (inst.get "dependencies")) := by
  obtain ⟨attributes, hattributes, hdict⟩ : ∃ attributes,
      getOr inst "attributes" (.dict []) = .ok attributes ∧ attributes.isDict := by
    rcases h.attributes with hnone | hdict
    · exact ⟨_, getOr_of_lookup h.isDict hnone, rfl⟩
    · exact ⟨_, getOr_of_get (isNone_of_isDict hdict), hdict⟩
  obtain ⟨keys, hkeys⟩ := exists_extractKeyAttributes htype hdict
  rcases h.dependencies with hnone | hlist
  · refine ⟨⟨.list [], keys⟩, ?_, ?_⟩
    · rw [parseV4Instance, getOr_of_lookup h.isDict hnone, ok_bind, hattributes, ok_bind, hkeys]
      rfl
    · rw [Value.get, hnone]
      rfl
  · refine ⟨⟨inst.get "dependencies", keys⟩, ?_, iterate_of_isList hlist⟩
    rw [parseV4Instance, getOr_of_get (isNone_of_isList hlist), ok_bind, hattributes, ok_bind, hkeys]
    rfl

/-- What the graph needs of a resource that was read. -/
structure Reads (resource : Value) (p : ParsedResource) : Prop where
  fullAddress : p.fullAddress = nodeId (addressOf resource)
  edges : edgesOf p = .ok ((dependenciesOf resource).map fun dep ↦
    ⟨nodeId (addressOf resource), .str dep, "depends_on"⟩)

theorem eq_str_of_isStr {value : Value} (h : value.isStr) : value = .str (textOf value) := by
  cases value with
  | str text => rfl
  | _ => cases h

theorem IsInstance.dependencies_eq {inst : Value} (h : IsInstance inst) :
    elementsOf (inst.get "dependencies") =
      ((elementsOf (inst.get "dependencies")).map textOf).map Value.str := by
  rw [map_map]
  exact ((map_congr_left fun dep hdep ↦ (eq_str_of_isStr (h.isText dep hdep)).symm).trans
    (map_id _)).symm

theorem exists_instances {type : Value} (htype : type.isStr) (source : String) (insts : List Value)
    (h : ∀ inst ∈ insts, IsInstance inst) :
    ∃ ps, insts.mapM (parseV4Instance type) = .ok ps ∧
      ps.mapM (fun inst ↦ (do
        return (← inst.dependencies.iterate).map fun dep ↦ ⟨source, dep, "depends_on"⟩ :
          Except Raised (List Edge))) =
      .ok (insts.map fun inst ↦ ((elementsOf (inst.get "dependencies")).map textOf).map fun dep ↦
        ⟨source, .str dep, "depends_on"⟩) := by
  induction insts with
  | nil => exact ⟨[], rfl, rfl⟩
  | cons inst insts ih =>
    obtain ⟨hinst, hinsts⟩ := forall_mem_cons.mp h
    obtain ⟨p, hp, hiterate⟩ := parseV4Instance_eq htype hinst
    obtain ⟨ps, hps, hedges⟩ := ih hinsts
    refine ⟨p :: ps, ?_, ?_⟩
    · rw [mapM_cons, hp, ok_bind, hps]
      rfl
    · rw [mapM_cons, hiterate, hedges, hinst.dependencies_eq]
      simp [map_map, Function.comp_def, pure, Except.pure]

variable (repr) in
theorem exists_reads (h : IsResource resource) :
    ∃ p, parseV4Resource repr resource = .ok p ∧ Reads resource p := by
  have hdict : resource.isDict := isDict_of_get (isNone_of_isStr h.type)
  obtain ⟨ps, hps, hedges⟩ := exists_instances h.type (nodeId (addressOf resource)) _ h.isInstance
  have hget : ∀ key, resource.get? key = .ok (resource.get key) := fun key ↦ if_pos hdict
  refine ⟨⟨nodeId (addressOf resource), resource.get "type", resource.get "name",
    providerName (textOf (resource.get "provider")).toList, resource.get "mode", ps⟩, ?_, rfl, ?_⟩
  · rw [parseV4Resource, getOr_of_get (isNone_of_isStr h.provider), ok_bind]
    rw [eq_str_of_isStr h.provider, providerText, ok_bind, hget, ok_bind, hget, ok_bind,
      getOr_of_get (isNone_of_isStr h.mode), ok_bind, getOr_of_get (isNone_of_isList h.instances),
      ok_bind, iterate_of_isList h.instances, ok_bind, hps, toText_of_isStr h.type,
      toText_of_isStr h.name]
    rfl
  · rw [edgesOf, hedges, ok_bind, dependenciesOf, map_flatMap, flatMap_def]
    rfl

variable (repr) in
theorem reads_filterMap (h : ∀ r ∈ resources, IsResource r) :
    List.Forall₂ Reads resources (resources.filterMap fun r ↦ (parseV4Resource repr r).toOption) := by
  induction resources with
  | nil => exact .nil
  | cons r resources ih =>
    obtain ⟨hr, hrest⟩ := forall_mem_cons.mp h
    obtain ⟨p, hp, hreads⟩ := exists_reads repr hr
    rw [filterMap_cons, hp]
    exact .cons hreads (ih hrest)

theorem fullAddress_of_reads {ps : List ParsedResource} (h : List.Forall₂ Reads resources ps) :
    ps.map ParsedResource.fullAddress = resources.map fun r ↦ nodeId (addressOf r) := by
  induction h with
  | nil => rfl
  | cons hr _ ih => rw [map_cons, map_cons, hr.fullAddress, ih]

theorem edges_of_reads {ps : List ParsedResource} (h : List.Forall₂ Reads resources ps) :
    ps.mapM edgesOf = .ok (resources.map fun r ↦ (dependenciesOf r).map fun dep ↦
      ⟨nodeId (addressOf r), .str dep, "depends_on"⟩) := by
  induction h with
  | nil => rfl
  | cons hr _ ih =>
    rw [mapM_cons, hr.edges, ih]
    rfl

variable (repr) in
/-- The graph of a version 4 state. -/
theorem exists_graph (h : IsState stateData) :
    ∃ g, buildDependencyGraph repr (stateData.get "version") stateData = .ok g ∧
      g.nodes.map Node.id = (resourcesOf stateData).map (fun r ↦ nodeId (addressOf r)) ∧
      g.edges = (resourcesOf stateData).flatMap fun r ↦ (dependenciesOf r).map fun dep ↦
        ⟨nodeId (addressOf r), .str dep, "depends_on"⟩ := by
  have hreads := reads_filterMap repr h.isResource
  generalize hps : ((resourcesOf stateData).filterMap fun r ↦ (parseV4Resource repr r).toOption) = ps at hreads
  have htruthy : stateData.truthy = true := by
    have hversion := h.version
    cases hstate : stateData with
    | dict items =>
      cases items with
      | nil => simp [hstate, Value.get, Value.items] at hversion
      | cons i items => rfl
    | _ => simp [hstate, Value.get, Value.items] at hversion
  have hresources : extractResources repr (stateData.get "version") stateData = .ok ps := by
    rw [extractResources, htruthy, h.version, getOr_of_get (isNone_of_isList h.resources)]
    have hiterate := iterate_of_isList h.resources
    simp [parseV4Resources, hiterate, Value.equals, Value.asNumber, ← hps, resourcesOf, pure, Except.pure]
  refine ⟨⟨ps.map nodeOf, _⟩, ?_, ?_, rfl⟩
  · rw [buildDependencyGraph, extractDependencies, hresources, ok_bind, ok_bind, edges_of_reads hreads]
    rfl
  · rw [map_map]
    exact fullAddress_of_reads hreads

/-! ### The ids and the edges -/

theorem nodeId_inj {a b : Address} (ha : '.' ∉ a.type.toList) (hb : '.' ∉ b.type.toList) :
    nodeId a = nodeId b ↔ a.type = b.type ∧ a.name = b.name := by
  constructor
  · intro h
    have htake : ∀ c : Address, '.' ∉ c.type.toList →
        (nodeId c).toList.takeWhile (· ≠ '.') = c.type.toList := fun c hc ↦ by
      rw [nodeId, String.append_assoc, String.toList_append, takeWhile_append_of_pos]
      · simp [String.toList_append]
      · exact fun x hx ↦ decide_eq_true fun heq ↦ hc (heq ▸ hx)
    have htype : a.type = b.type := String.toList_inj.mp (by rw [← htake a ha, ← htake b hb, h])
    refine ⟨htype, ?_⟩
    rw [nodeId, nodeId, htype] at h
    exact String.append_right_inj _ |>.mp h
  · rintro ⟨htype, hname⟩
    rw [nodeId, nodeId, htype, hname]

theorem full_eq_nodeId_iff {a : Address} : a.full = nodeId a ↔ a.moduleAddress = "" ∧ a.mode ≠ "data" := by
  constructor
  · intro h
    have hlength := congrArg String.length h
    simp only [Address.full, nodeId, String.length_append] at hlength
    refine ⟨by_contra fun hmodule ↦ ?_, fun hmode ↦ ?_⟩
    · rw [if_neg (by simpa [String.isEmpty_iff] using hmodule), String.length_append] at hlength
      have hdot : ".".length = 1 := rfl
      omega
    · rw [if_pos hmode] at hlength
      have hdata : "data.".length = 5 := rfl
      omega
  · rintro ⟨hmodule, hmode⟩
    simp [Address.full, nodeId, hmodule, hmode]

theorem nodup_nodeId_iff (h : ∀ r ∈ resources, IsResource r) :
    (resources.map fun r ↦ nodeId (addressOf r)).Nodup ↔
      (resources.map fun r ↦ ((addressOf r).type, (addressOf r).name)).Nodup := by
  rw [List.Nodup, List.Nodup, pairwise_map, pairwise_map]
  refine List.Pairwise.iff_of_mem fun {r r'} hr hr' ↦ not_congr ?_
  rw [nodeId_inj (h r hr).identifier (h r' hr').identifier, Prod.mk.injEq]

section Edges

variable {g : Graph}

theorem idAt_eq (hids : g.nodes.map Node.id = resources.map fun r ↦ nodeId (addressOf r)) (i : Nat) :
    g.idAt i = resources[i]?.map fun r ↦ nodeId (addressOf r) := by
  rw [Graph.idAt, ← getElem?_map, hids, getElem?_map]

theorem joins_iff (hids : g.nodes.map Node.id = resources.map fun r ↦ nodeId (addressOf r)) {i : Nat}
    {r : Value} (hi : resources[i]? = some r) {dep : String} :
    Joins resources g (i, dep) ⟨nodeId (addressOf r), .str dep, "depends_on"⟩ ↔
      ∀ r' ∈ resources, (addressOf r').full = dep → nodeId (addressOf r') = dep := by
  constructor
  · intro h r' hr' hfull
    obtain ⟨j, hj⟩ := mem_iff_getElem?.mp hr'
    obtain ⟨id, hid, hdep⟩ := h.target j r' hj hfull
    rw [idAt_eq hids, hj] at hid
    exact (Option.some.inj hid).trans (Value.str.inj hdep).symm
  · intro h
    refine ⟨by rw [idAt_eq hids, hi]; rfl, fun j r' hj hfull ↦ ⟨dep, ?_, rfl⟩⟩
    rw [idAt_eq hids, hj, Option.map_some, h r' (mem_of_getElem? hj) hfull]

theorem forall₂_joins_iff (hids : g.nodes.map Node.id = resources.map fun r ↦ nodeId (addressOf r))
    (hedges : g.edges = resources.flatMap fun r ↦ (dependenciesOf r).map fun dep ↦
      ⟨nodeId (addressOf r), .str dep, "depends_on"⟩) :
    List.Forall₂ (Joins resources g) (dependencyPairs resources) g.edges ↔
      ∀ r ∈ resources, ∀ dep ∈ dependenciesOf r, ∀ r' ∈ resources, (addressOf r').full = dep →
        nodeId (addressOf r') = dep := by
  -- both lists go through the dependencies of the resources with their positions
  let found : List (Value × Nat × String) :=
    resources.zipIdx.flatMap fun i ↦ (dependenciesOf i.1).map fun dep ↦ (i.1, i.2, dep)
  have hpairs : dependencyPairs resources = found.map Prod.snd := by
    simp [found, dependencyPairs, map_flatMap, Function.comp_def]
  have hedges' : g.edges = found.map fun f ↦ ⟨nodeId (addressOf f.1), .str f.2.2, "depends_on"⟩ := by
    rw [hedges, map_flatMap]
    conv_lhs => rw [← zipIdx_map_fst 0 resources, flatMap_map]
    simp [Function.comp_def]
  rw [hpairs, hedges', forall₂_map_left_iff, forall₂_map_right_iff, forall₂_same]
  have hmem : ∀ r i dep, (r, i, dep) ∈ found ↔ resources[i]? = some r ∧ dep ∈ dependenciesOf r := by
    simp [found, mem_zipIdx_iff_getElem?]
  constructor
  · intro h r hr dep hdep
    obtain ⟨i, hi⟩ := mem_iff_getElem?.mp hr
    exact (joins_iff hids hi).mp (h (r, i, dep) ((hmem r i dep).mpr ⟨hi, hdep⟩))
  · rintro h ⟨r, i, dep⟩ hf
    obtain ⟨hi, hdep⟩ := (hmem r i dep).mp hf
    exact (joins_iff hids hi).mpr (h r (mem_of_getElem? hi) dep hdep)

end Edges

/-- The graph of a version 4 state has a node of its own for each resource, and an edge for each
dependency between the nodes of its resources, exactly if no two resources have one type and name and
only managed resources of the root module are depended on. -/
theorem isGraphOf_iff (repr : Value → String) (stateData : Value) (h : IsState stateData) :
    (∃ g, buildDependencyGraph repr (stateData.get "version") stateData = .ok g ∧
      IsGraphOf (resourcesOf stateData) g) ↔ RootManaged (resourcesOf stateData) := by
  obtain ⟨g, hg, hids, hedges⟩ := exists_graph repr h
  have hlength : g.nodes.length = (resourcesOf stateData).length := by
    simpa using congrArg List.length hids
  have hgraph : (∃ g, buildDependencyGraph repr (stateData.get "version") stateData = .ok g ∧
      IsGraphOf (resourcesOf stateData) g) ↔ IsGraphOf (resourcesOf stateData) g :=
    ⟨fun ⟨_, hg', hof⟩ ↦ Except.ok.inj (hg'.symm.trans hg) ▸ hof, fun hof ↦ ⟨g, hg, hof⟩⟩
  rw [hgraph]
  constructor
  · intro hof
    refine ⟨(nodup_nodeId_iff h.isResource).mp (hids ▸ hof.distinct), fun r hr r' hr' hdep ↦ ?_⟩
    exact full_eq_nodeId_iff.mp
      ((forall₂_joins_iff hids hedges).mp hof.edges r hr _ hdep r' hr' rfl).symm
  · intro hroot
    refine ⟨hlength, hids.symm ▸ (nodup_nodeId_iff h.isResource).mpr hroot.distinct,
      (forall₂_joins_iff hids hedges).mpr ?_⟩
    rintro r hr dep hdep r' hr' rfl
    exact (full_eq_nodeId_iff.mpr (hroot.targets r hr r' hr' hdep)).symm

/-! ### Examples -/

def exampleResource (moduleAddress : Option String) (type name : String) (dependencies : List String) :
    Value :=
  .dict ((moduleAddress.map fun address ↦ ("module", Value.str address)).toList ++ [("mode", .str "managed"), ("type", .str type), ("name", .str name),
    ("provider", .str "provider[\"registry.terraform.io/hashicorp/aws\"]"),
    ("instances", .list [.dict [("attributes", .dict []),
      ("dependencies", .list (dependencies.map Value.str))]])])

/-- A version 4 state. -/
def exampleState (resources : List Value) : Value :=
  .dict [("version", .int 4), ("resources", .list resources)]

theorem exampleResource_isResource {moduleAddress : Option String} {type name : String}
    {dependencies : List String} (htype : '.' ∉ type.toList) :
    IsResource (exampleResource moduleAddress type name dependencies) := by
  have hinstances : ∀ inst ∈ [Value.dict [("attributes", .dict []),
      ("dependencies", .list (dependencies.map Value.str))]], IsInstance inst := by
    refine forall_mem_singleton.mpr ⟨rfl, .inr rfl, .inr rfl, fun dep hdep ↦ ?_⟩
    obtain ⟨text, -, rfl⟩ := mem_map.mp hdep
    rfl
  cases moduleAddress with
  | none => exact ⟨.inr rfl, rfl, rfl, rfl, rfl, rfl, hinstances, htype⟩
  | some address => exact ⟨.inl rfl, rfl, rfl, rfl, rfl, rfl, hinstances, htype⟩

def subnetState : Value :=
  exampleState [exampleResource none "aws_vpc" "main" [],
    exampleResource none "aws_subnet" "a" ["aws_vpc.main"]]

theorem subnetState_isState : IsState subnetState where
  version := rfl
  resources := rfl
  isResource := by
    refine forall_mem_cons.mpr ⟨exampleResource_isResource (by decide), ?_⟩
    exact forall_mem_singleton.mpr (exampleResource_isResource (by decide))
  identified := by decide +kernel
  named := by decide +kernel

theorem subnetState_isGraphOf : IsState subnetState ∧
    ∃ g, buildDependencyGraph (fun _ ↦ "") (subnetState.get "version") subnetState = .ok g ∧
      IsGraphOf (resourcesOf subnetState) g :=
  ⟨subnetState_isState, (isGraphOf_iff _ _ subnetState_isState).mpr ⟨by decide +kernel, by decide +kernel⟩⟩

/-- A network in the root module, and one of a module that is called the same. -/
def nestedState : Value :=
  exampleState [exampleResource none "aws_vpc" "main" [],
    exampleResource (some "module.edge") "aws_vpc" "main" []]

/-- Both networks get one id. -/
theorem nestedState_not_isGraphOf : IsState nestedState ∧
    ¬ ∃ g, buildDependencyGraph (fun _ ↦ "") (nestedState.get "version") nestedState = .ok g ∧
      IsGraphOf (resourcesOf nestedState) g := by
  refine ⟨⟨rfl, rfl, ?_, by decide +kernel, by decide +kernel⟩, ?_⟩
  · refine List.forall_mem_cons.mpr ⟨exampleResource_isResource (by decide), ?_⟩
    exact List.forall_mem_singleton.mpr (exampleResource_isResource (by decide))
  · rintro ⟨g, hg, hof⟩
    have hids : (buildDependencyGraph (fun _ ↦ "") (nestedState.get "version") nestedState).toOption.map
        (fun g ↦ g.nodes.map Node.id) = some ["aws_vpc.main", "aws_vpc.main"] := by decide +kernel
    rw [hg] at hids
    have hdistinct : ["aws_vpc.main", "aws_vpc.main"].Nodup := Option.some.inj hids ▸ hof.distinct
    exact absurd hdistinct (by decide)

end BnkForge.Terraform
