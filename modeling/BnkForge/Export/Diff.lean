import BnkForge.Lib.Dict
import BnkForge.Lib.ExceptResult
import BnkForge.Lib.PythonEquality
import BnkForge.Lib.PythonRecord
import Mathlib.Data.List.Sort
import Mathlib.Data.String.Basic

/-!
# Differences of two exported configurations

`diff_configs` compares the resources and the modules of two exports. The resources of all categories
are put in one dict under a text made of kind, namespace and name. Resources of different API versions
may have one key: the last one listed is compared, and the others are not
(`diffsFaithfully_iff`).
-/

namespace BnkForge.Export

open Python ExceptResult List

/-! ### The comparison -/

/-- `sorted(keys)`. -/
def sorted (keys : List String) : List String := keys.mergeSort

/-- The keys of the first dict that the second one does not have. -/
def keysOnlyIn (xs ys : List (String × Value)) : List String :=
  sorted ((xs.map Prod.fst).filter (· ∉ ys.map Prod.fst))

def commonKeys (xs ys : List (String × Value)) : List String :=
  sorted ((xs.map Prod.fst).filter (· ∈ ys.map Prod.fst))

structure Change where
  key : String
  valueA : Value
  valueB : Value

def Change.swap (c : Change) : Change := ⟨c.key, c.valueB, c.valueA⟩

/-- `items[key]`, for a key of the dict. -/
def valueAt (items : List (String × Value)) (key : String) : Value := (items.lookup key).getD .none

/-- The comparison of one key: `.get(field, {})` on both sides. -/
def compareAt (field : String) (xs ys : List (String × Value)) (key : String) :
    Except Raised (Option Change) := do
  let valueA ← getOr (valueAt xs key) field (.dict [])
  let valueB ← getOr (valueAt ys key) field (.dict [])
  return if valueA.equals valueB then none else some ⟨key, valueA, valueB⟩

def changesIn (field : String) (xs ys : List (String × Value)) : Except Raised (List Change) := do
  let compared ← (commonKeys xs ys).mapM (compareAt field xs ys)
  return compared.reduceOption

section

variable (repr : Value → String)

def resourceKey (resource : Value) : Except Raised String := do
  let kind ← getOr resource "kind" (.str "Unknown")
  let name ← getOr (← getOr resource "metadata" (.dict [])) "name" (.str "unknown")
  let ns ← getOr (← getOr resource "metadata" (.dict [])) "namespace" (.str "")
  return if ns.truthy then kind.toText repr ++ "/" ++ ns.toText repr ++ "/" ++ name.toText repr
    else kind.toText repr ++ "/" ++ name.toText repr

/-- `_flatten_resources`: the last resource of a key is kept. -/
def flattenResources (resources : Value) : Except Raised (Dict String Value) := do
  let entries ← (← itemsOf resources).mapM fun category ↦ do
    (← category.2.iterate).mapM fun resource ↦ do return (← resourceKey repr resource, resource)
  return Dict.empty.setAll entries.flatten

structure ResourceChange extends Change where
  kind : Value

/-- What is reported of the resources or of the modules. -/
structure Comparison (α : Type) where
  onlyInA : List String
  onlyInB : List String
  changed : List α

/-- The number of keys that are reported. -/
def Comparison.size {α : Type} (c : Comparison α) : Nat :=
  c.onlyInA.length + c.onlyInB.length + c.changed.length

/-- What `diff_configs` returns. -/
structure Diff where
  summary : String
  totalDiffs : Nat
  clusterA : Value
  clusterB : Value
  resources : Comparison ResourceChange
  modules : Comparison Change

def clusterName (config : Value) (default : String) : Except Raised Value := do
  let header ← getOr config "bnk_forge_export" (.dict [])
  getOr (← getOr header "cluster" (.dict [])) "name" (.str default)

/-- The line over a report. -/
def summaryOf (totalDiffs : Nat) (clusterA clusterB : Value) : String :=
  let clusters := "'" ++ clusterA.toText repr ++ "' and '" ++ clusterB.toText repr ++ "'"
  if totalDiffs = 0 then "No differences between " ++ clusters
  else toString totalDiffs ++ " difference(s) between " ++ clusters

/-- `diff_configs`. -/
def diffConfigs (configA configB : Value) : Except Raised Diff := do
  let resourcesA ← flattenResources repr (← getOr configA "resources" (.dict []))
  let resourcesB ← flattenResources repr (← getOr configB "resources" (.dict []))
  let changed ← changesIn "spec" resourcesA.items resourcesB.items
  let changed ← changed.mapM fun c ↦ do
    return { c with kind := ← getOr (valueAt resourcesA.items c.key) "kind" (.str "Unknown") }
  let resources : Comparison ResourceChange :=
    ⟨keysOnlyIn resourcesA.items resourcesB.items, keysOnlyIn resourcesB.items resourcesA.items, changed⟩
  let modsA ← itemsOf (← getOr configA "module_config" (.dict []))
  let modsB ← itemsOf (← getOr configB "module_config" (.dict []))
  let modules : Comparison Change :=
    ⟨keysOnlyIn modsA modsB, keysOnlyIn modsB modsA, ← changesIn "variables" modsA modsB⟩
  let totalDiffs := resources.size + modules.size
  let clusterA ← clusterName configA "Cluster A"
  let clusterB ← clusterName configB "Cluster B"
  return ⟨summaryOf repr totalDiffs clusterA clusterB, totalDiffs, clusterA, clusterB, resources, modules⟩

end

/-! ### What a diff is about -/

def fieldOf (field : String) (value : Value) : Value := (value.items.lookup field).getD (.dict [])

/-- By what a cluster tells its resources apart. A cluster-scoped resource has no namespace. -/
structure Identity where
  apiVersion : String
  kind : String
  ns : String
  name : String
  deriving DecidableEq

def identity (resource : Value) : Identity :=
  ⟨textOf (resource.get "apiVersion"), textOf (resource.get "kind"),
    textOf ((resource.get "metadata").get "namespace"), textOf ((resource.get "metadata").get "name")⟩

/-- The part of an identity that the comparison looks at, as a text. -/
def Identity.key (i : Identity) : String :=
  if i.ns.isEmpty then i.kind ++ "/" ++ i.name else i.kind ++ "/" ++ i.ns ++ "/" ++ i.name

def resourcesOf (config : Value) : List Value :=
  (config.get "resources").items.flatMap fun category ↦ elementsOf category.2

def modulesOf (config : Value) : List (String × Value) := (config.get "module_config").items

/-- A resource as it is exported. -/
structure IsResource (resource : Value) : Prop where
  apiVersion : (resource.get "apiVersion").isStr
  kind : (resource.get "kind").isStr
  name : ((resource.get "metadata").get "name").isStr
  ns : ((resource.get "metadata").get "namespace").isStr ∨ ((resource.get "metadata").get "namespace").isNone

/-- An exported configuration in which no two resources have one identity. -/
structure IsExport (config : Value) : Prop where
  wellFormed : config.WellFormed
  resources : (config.get "resources").isDict
  categories : ∀ category ∈ (config.get "resources").items, category.2.isList
  isResource : ∀ resource ∈ resourcesOf config, IsResource resource
  modules : (config.get "module_config").isDict
  isModule : ∀ m ∈ modulesOf config, m.2.isDict
  cluster : ((config.get "bnk_forge_export").get "cluster").isDict
  identified : ((resourcesOf config).map identity).Nodup

section Covers

variable {α ι : Type} (name : α → ι) (content : α → Value)

def Covers (xs ys : List α) : Prop :=
  ∀ x ∈ xs, ∃ y ∈ ys, name y = name x ∧ (content x).equals (content y) = true

def Same (xs ys : List α) : Prop := Covers name content xs ys ∧ Covers name content ys xs

end Covers

abbrev SameResources : List Value → List Value → Prop := Same identity (fieldOf "spec")

abbrev SameModules : List (String × Value) → List (String × Value) → Prop :=
  Same Prod.fst fun m ↦ fieldOf "variables" m.2

/-- The two reports of a pair of configurations, in both orders: keys that are in one configuration
only have changed their side, and so have the values of each change. -/
structure Swapped (d d' : Diff) : Prop where
  resourcesOnly : d'.resources.onlyInA = d.resources.onlyInB ∧ d'.resources.onlyInB = d.resources.onlyInA
  modulesOnly : d'.modules.onlyInA = d.modules.onlyInB ∧ d'.modules.onlyInB = d.modules.onlyInA
  resources : d'.resources.changed.map ResourceChange.toChange =
    d.resources.changed.map fun c ↦ c.toChange.swap
  modules : d'.modules.changed = d.modules.changed.map Change.swap
  total : d'.totalDiffs = d.totalDiffs

/-- The diff of two configurations is empty just if they are the same, and it does not depend on their
order. -/
def DiffsFaithfully (repr : Value → String) (a b : Value) : Prop :=
  ∃ d d', diffConfigs repr a b = .ok d ∧ diffConfigs repr b a = .ok d' ∧ Swapped d d' ∧
    (d.totalDiffs = 0 ↔ SameResources (resourcesOf a) (resourcesOf b) ∧
      SameModules (modulesOf a) (modulesOf b))

/-! ### Keys that several resources share -/

def under (key : String) (resources : List Value) : List Value :=
  resources.filter fun r ↦ (identity r).key = key

/-- Several identities have the key. -/
def Shared (key : String) (resources : List Value) : Prop :=
  ∃ r ∈ resources, ∃ r' ∈ resources, (identity r).key = key ∧ (identity r').key = key ∧
    identity r ≠ identity r'

def SeenAlike (key : String) (xs ys : List Value) : Prop :=
  Option.Rel (fun r r' ↦ (fieldOf "spec" r).equals (fieldOf "spec" r') = true)
    (under key xs).getLast? (under key ys).getLast?

def SharedKeysSeen (a b : Value) : Prop :=
  let xs := resourcesOf a
  let ys := resourcesOf b
  SameModules (modulesOf a) (modulesOf b) →
  (∀ key, ¬ Shared key (xs ++ ys) → SameResources (under key xs) (under key ys)) →
  ((∀ key, Shared key (xs ++ ys) → SeenAlike key xs ys) ↔
    ∀ key, Shared key (xs ++ ys) → SameResources (under key xs) (under key ys))

/-! ### Reading an export -/

def flat (config : Value) : Dict String Value :=
  Dict.empty.setAll ((resourcesOf config).map fun r ↦ ((identity r).key, r))

section Reading

variable {repr : Value → String} {value default config resource : Value} {key field : String}

variable (repr) in
theorem getOr_namespace (hdict : value.isDict) (h : (value.get key).isStr ∨ (value.get key).isNone) :
    ∃ ns, getOr value key (.str "") = .ok ns ∧ ns.truthy = !(textOf (value.get key)).isEmpty ∧
      (ns.truthy → ns.toText repr = textOf (value.get key)) := by
  rw [getOr_of_isDict hdict]
  refine ⟨_, rfl, ?_⟩
  unfold Value.get at h ⊢
  cases hlookup : value.items.lookup key with
  | none => exact ⟨rfl, by rintro ⟨⟩⟩
  | some v =>
    simp only [hlookup, Option.getD_some] at h ⊢
    cases v with
    | str s => exact ⟨rfl, fun _ ↦ rfl⟩
    | none => exact ⟨rfl, by rintro ⟨⟩⟩
    | _ => simp [Value.isStr, Value.isNone] at h

theorem IsResource.metadata (h : IsResource resource) : (resource.get "metadata").isDict :=
  isDict_of_get (isNone_of_isStr h.name)

theorem resourceKey_eq (h : IsResource resource) :
    resourceKey repr resource = .ok (identity resource).key := by
  obtain ⟨ns, hns, htruthy, htext⟩ := getOr_namespace repr h.metadata h.ns
  simp only [resourceKey, getOr_of_get (isNone_of_isStr h.kind), getOr_of_get (isNone_of_isStr h.name),
    getOr_of_get (isNone_of_isDict h.metadata), hns, ok_bind, toText_of_isStr h.kind,
    toText_of_isStr h.name]
  change ns.truthy = !(identity resource).ns.isEmpty at htruthy
  unfold Identity.key
  by_cases hempty : (identity resource).ns.isEmpty = true
  · rw [if_pos hempty, htruthy, hempty]
    rfl
  · have hns' : ns.truthy = true := by rw [htruthy, Bool.eq_false_of_not_eq_true hempty, Bool.not_false]
    rw [if_neg hempty, if_pos hns', htext hns']
    rfl

theorem flattenResources_eq (h : IsExport config) : flattenResources repr (config.get "resources") =
    .ok (flat config) := by
  have hentry : ∀ r ∈ resourcesOf config,
      (do return (← resourceKey repr r, r) : Except Raised (String × Value)) =
        .ok ((identity r).key, r) := fun r hr ↦ by
    rw [resourceKey_eq (h.isResource r hr)]
    rfl
  have hcategory : ∀ category ∈ (config.get "resources").items, (do
      (← category.2.iterate).mapM fun r ↦ do return (← resourceKey repr r, r) :
        Except Raised (List (String × Value))) =
      .ok ((elementsOf category.2).map fun r ↦ ((identity r).key, r)) := fun category hc ↦ by
    rw [iterate_of_isList (h.categories category hc)]
    exact mapM_of_forall fun r hr ↦ hentry r (mem_flatMap.mpr ⟨category, hc, hr⟩)
  rw [flattenResources, itemsOf, if_pos h.resources, ok_bind, mapM_of_forall hcategory, ok_bind,
    flat, resourcesOf, map_flatMap, flatMap_def]
  rfl

end Reading

/-! ### Comparing two dicts -/

section Compare

variable {xs ys : List (String × Value)} {field key : String}

/-- The comparison of a key of both dicts whose values are dicts. -/
def changeAt (field : String) (xs ys : List (String × Value)) (key : String) : Option Change :=
  let valueA := fieldOf field (valueAt xs key)
  let valueB := fieldOf field (valueAt ys key)
  if valueA.equals valueB then none else some ⟨key, valueA, valueB⟩

def changesOf (field : String) (xs ys : List (String × Value)) : List Change :=
  (commonKeys xs ys).filterMap (changeAt field xs ys)

theorem mem_sorted {keys : List String} : key ∈ sorted keys ↔ key ∈ keys :=
  (mergeSort_perm _ _).mem_iff

theorem mem_commonKeys : key ∈ commonKeys xs ys ↔ key ∈ xs.map Prod.fst ∧ key ∈ ys.map Prod.fst := by
  rw [commonKeys, mem_sorted, mem_filter, decide_eq_true_iff]

theorem keysOnlyIn_eq_nil : keysOnlyIn xs ys = [] ↔ xs.map Prod.fst ⊆ ys.map Prod.fst := by
  simp only [eq_nil_iff_forall_not_mem, keysOnlyIn, mem_sorted, mem_filter,
    decide_eq_true_iff, not_and_not_right, subset_def]

theorem sorted_eq_of_perm {keys keys' : List String} (h : keys.Perm keys') : sorted keys = sorted keys' := by
  refine List.Perm.eq_of_sortedLE sortedLE_mergeSort sortedLE_mergeSort ?_
  exact ((mergeSort_perm keys _).trans h).trans (mergeSort_perm keys' _).symm

theorem commonKeys_comm (hx : (xs.map Prod.fst).Nodup) (hy : (ys.map Prod.fst).Nodup) :
    commonKeys ys xs = commonKeys xs ys := by
  refine sorted_eq_of_perm ((perm_ext_iff_of_nodup (hy.filter _) (hx.filter _)).mpr fun key ↦ ?_)
  simp only [mem_filter, decide_eq_true_iff]
  exact and_comm

theorem mem_valueAt (h : key ∈ xs.map Prod.fst) : (key, valueAt xs key) ∈ xs := by
  unfold valueAt
  cases hlookup : xs.lookup key with
  | none => exact absurd h (Assoc.lookup_eq_none_iff.mp hlookup)
  | some v => exact Assoc.mem_of_lookup hlookup

theorem key_of_changeAt {c : Change} (h : changeAt field xs ys key = some c) : c.key = key := by
  simp only [changeAt, Option.ite_none_left_eq_some, Option.some.injEq] at h
  rw [← h.2]

theorem compareAt_eq (hx : ∀ i ∈ xs, i.2.isDict) (hy : ∀ i ∈ ys, i.2.isDict)
    (h : key ∈ commonKeys xs ys) : compareAt field xs ys key = .ok (changeAt field xs ys key) := by
  obtain ⟨hkx, hky⟩ := mem_commonKeys.mp h
  rw [compareAt, getOr_of_isDict (hx _ (mem_valueAt hkx)), getOr_of_isDict (hy _ (mem_valueAt hky))]
  rfl

theorem changesIn_eq (hx : ∀ i ∈ xs, i.2.isDict) (hy : ∀ i ∈ ys, i.2.isDict) :
    changesIn field xs ys = .ok (changesOf field xs ys) := by
  rw [changesIn, mapM_of_forall fun key h ↦ compareAt_eq hx hy h, ok_bind, changesOf]
  exact congrArg Except.ok filterMap_map

theorem WellFormed.fieldOf {v : Value} (h : v.WellFormed) (field : String) :
    (fieldOf field v).WellFormed := by
  unfold Export.fieldOf
  cases hlookup : v.items.lookup field with
  | none => exact ⟨nodup_nil, trivial⟩
  | some x => exact h.of_mem_items (Assoc.mem_of_lookup hlookup)

theorem changeAt_swap (hx : ∀ i ∈ xs, i.2.WellFormed) (hy : ∀ i ∈ ys, i.2.WellFormed)
    (h : key ∈ commonKeys xs ys) : changeAt field ys xs key = (changeAt field xs ys key).map Change.swap := by
  obtain ⟨hkx, hky⟩ := mem_commonKeys.mp h
  have hcomm := Value.equals_comm (WellFormed.fieldOf (hx _ (mem_valueAt hkx)) field)
    (WellFormed.fieldOf (hy _ (mem_valueAt hky)) field)
  simp only [changeAt, hcomm]
  split <;> rfl

theorem changesOf_swap (hx : (xs.map Prod.fst).Nodup) (hy : (ys.map Prod.fst).Nodup)
    (hwx : ∀ i ∈ xs, i.2.WellFormed) (hwy : ∀ i ∈ ys, i.2.WellFormed) :
    changesOf field ys xs = (changesOf field xs ys).map Change.swap := by
  rw [changesOf, commonKeys_comm hx hy, changesOf, map_filterMap]
  exact filterMap_congr fun key h ↦ changeAt_swap hwx hwy h

def AlikeIn (field : String) (v w : Value) : Prop := (fieldOf field v).equals (fieldOf field w) = true

theorem compare_eq_nil_iff : (keysOnlyIn xs ys = [] ∧ keysOnlyIn ys xs = [] ∧ changesOf field xs ys = []) ↔
    ∀ key, Option.Rel (AlikeIn field) (xs.lookup key) (ys.lookup key) := by
  have hchanges : changesOf field xs ys = [] ↔ ∀ key, key ∈ xs.map Prod.fst → key ∈ ys.map Prod.fst →
      AlikeIn field (valueAt xs key) (valueAt ys key) := by
    simp only [changesOf, filterMap_eq_nil_iff, mem_commonKeys, and_imp, changeAt, AlikeIn,
      ite_eq_left_iff, reduceCtorEq, imp_false, not_not]
  rw [hchanges, keysOnlyIn_eq_nil, keysOnlyIn_eq_nil]
  simp only [subset_def, ← forall_and]
  refine forall_congr' fun key ↦ ?_
  have hmem : ∀ zs : List (String × Value), key ∈ zs.map Prod.fst ↔ (zs.lookup key).isSome := fun zs ↦ by
    rw [Option.isSome_iff_ne_none, ne_eq, Assoc.lookup_eq_none_iff, not_not]
  simp only [hmem, valueAt]
  cases xs.lookup key <;> cases ys.lookup key <;> simp

end Compare

/-! ### The diff of two exports -/

section Exports

variable {repr : Value → String} {a b config : Value} {key : String}

theorem lookup_flat : (flat config).items.lookup key = (under key (resourcesOf config)).getLast? := by
  have hlast : ∀ rs : List Value, (rs.map fun r ↦ ((identity r).key, r)).reverse.lookup key =
      (under key rs).getLast? := fun rs ↦ by
    induction rs using List.reverseRecOn with
    | nil => rfl
    | append_singleton rs r ih =>
      rw [map_append, reverse_append, under, filter_append]
      by_cases h : (identity r).key = key
      · simp [h]
      · simpa [lookup_cons, h, beq_false_of_ne (Ne.symm h), under] using ih
  have hget := @Dict.get?_setAll String Value _ Dict.empty key
    ((resourcesOf config).map fun r ↦ ((identity r).key, r))
  rw [Dict.get?_empty, Option.or_none, hlast] at hget
  exact hget

theorem mem_flat {i : String × Value} (h : i ∈ (flat config).items) : i.2 ∈ resourcesOf config := by
  have hlookup : (flat config).items.lookup i.1 = some i.2 :=
    (Assoc.lookup_eq_some_iff_mem (Dict.nodup _)).mpr h
  rw [lookup_flat] at hlookup
  exact mem_of_mem_filter (mem_of_getLast? hlookup)

theorem IsResource.isDict {r : Value} (h : IsResource r) : r.isDict :=
  isDict_of_get (isNone_of_isStr h.kind)

theorem mem_resourcesOf_wellFormed (h : IsExport config) {r : Value} (hr : r ∈ resourcesOf config) :
    r.WellFormed := by
  obtain ⟨category, hc, hr⟩ := mem_flatMap.mp hr
  have hcategory := (h.wellFormed.get "resources").of_mem_items hc
  cases hlist : category.2 with
  | list items =>
    rw [hlist] at hcategory hr
    exact Value.wellFormedList_iff.mp hcategory r hr
  | _ =>
    rw [hlist] at hr
    cases hr

theorem clusterName_eq (h : IsExport config) (default : String) :
    ∃ name, clusterName config default = .ok name := by
  have hheader := isDict_of_get (isNone_of_isDict h.cluster)
  rw [clusterName, getOr_of_get (isNone_of_isDict hheader), ok_bind,
    getOr_of_get (isNone_of_isDict h.cluster), ok_bind, getOr_of_isDict h.cluster]
  exact ⟨_, rfl⟩

theorem itemsOf_modules (h : IsExport config) :
    itemsOf (config.get "module_config") = .ok (modulesOf config) := if_pos h.modules

theorem isDict_of_mem_flat (h : IsExport config) : ∀ i ∈ (flat config).items, i.2.isDict := fun _ hi ↦
  (h.isResource _ (mem_flat hi)).isDict

theorem mapM_kind (ha : IsExport a) (b : Value) :
    ((changesOf "spec" (flat a).items (flat b).items).mapM fun c ↦ (do
      return { c with kind := ← getOr (valueAt (flat a).items c.key) "kind" (.str "Unknown") } :
        Except Raised ResourceChange)) =
      .ok ((changesOf "spec" (flat a).items (flat b).items).map fun c ↦
        { c with kind := ((valueAt (flat a).items c.key).items.lookup "kind").getD (.str "Unknown") }) := by
  refine mapM_of_forall fun c hc ↦ ?_
  obtain ⟨key, hkey, hchange⟩ := mem_filterMap.mp hc
  rw [key_of_changeAt hchange, getOr_of_isDict (isDict_of_mem_flat ha _ (mem_valueAt (mem_commonKeys.mp hkey).1))]
  rfl

variable (repr) in
theorem diffConfigs_eq (ha : IsExport a) (hb : IsExport b) : ∃ d, diffConfigs repr a b = .ok d ∧
    d.resources.onlyInA = keysOnlyIn (flat a).items (flat b).items ∧
    d.resources.onlyInB = keysOnlyIn (flat b).items (flat a).items ∧
    d.resources.changed.map ResourceChange.toChange = changesOf "spec" (flat a).items (flat b).items ∧
    d.modules = ⟨keysOnlyIn (modulesOf a) (modulesOf b), keysOnlyIn (modulesOf b) (modulesOf a),
      changesOf "variables" (modulesOf a) (modulesOf b)⟩ ∧
    d.totalDiffs = d.resources.size + d.modules.size := by
  have hread : ∀ {c : Value} {field : String}, (c.get field).isDict →
      getOr c field (.dict []) = .ok (c.get field) := fun h ↦ getOr_of_get (isNone_of_isDict h)
  obtain ⟨clusterA, hclusterA⟩ := clusterName_eq ha "Cluster A"
  obtain ⟨clusterB, hclusterB⟩ := clusterName_eq hb "Cluster B"
  rw [diffConfigs, hread ha.resources, ok_bind, flattenResources_eq ha, ok_bind, hread hb.resources,
    ok_bind, flattenResources_eq hb, ok_bind, changesIn_eq (isDict_of_mem_flat ha) (isDict_of_mem_flat hb),
    ok_bind, mapM_kind ha b, ok_bind, hread ha.modules, ok_bind, itemsOf_modules ha, ok_bind,
    hread hb.modules, ok_bind, itemsOf_modules hb, ok_bind, changesIn_eq ha.isModule hb.isModule, ok_bind, hclusterA, ok_bind, hclusterB, ok_bind]
  refine ⟨_, rfl, rfl, rfl, ?_, rfl, rfl⟩
  rw [map_map]
  exact map_id _

theorem swapped (ha : IsExport a) (hb : IsExport b) {d d' : Diff} (h : diffConfigs repr a b = .ok d)
    (h' : diffConfigs repr b a = .ok d') : Swapped d d' := by
  obtain ⟨d₀, hd, honlyA, honlyB, hchanged, hmodules, htotal⟩ := diffConfigs_eq repr ha hb
  obtain rfl : d₀ = d := Except.ok.inj (hd.symm.trans h)
  obtain ⟨d₁, hd', honlyA', honlyB', hchanged', hmodules', htotal'⟩ := diffConfigs_eq repr hb ha
  obtain rfl : d₁ = d' := Except.ok.inj (hd'.symm.trans h')
  have hresources : d₁.resources.changed.map ResourceChange.toChange =
      d₀.resources.changed.map fun c ↦ c.toChange.swap := by
    rw [hchanged', changesOf_swap (flat a).nodup (flat b).nodup
      (fun i hi ↦ mem_resourcesOf_wellFormed ha (mem_flat hi))
      (fun i hi ↦ mem_resourcesOf_wellFormed hb (mem_flat hi)), ← hchanged, map_map]
    rfl
  have hmods : d₁.modules.changed = d₀.modules.changed.map Change.swap := by
    rw [hmodules', hmodules]
    exact changesOf_swap (ha.wellFormed.get _).nodup (hb.wellFormed.get _).nodup
      (fun i hi ↦ (ha.wellFormed.get _).of_mem_items hi) (fun i hi ↦ (hb.wellFormed.get _).of_mem_items hi)
  refine ⟨⟨honlyA'.trans honlyB.symm, honlyB'.trans honlyA.symm⟩, by simp [hmodules, hmodules'],
    hresources, hmods, ?_⟩
  have hlength := congrArg List.length hresources
  have hlength' := congrArg List.length hmods
  simp only [length_map] at hlength hlength'
  rw [htotal, htotal']
  simp only [Comparison.size, honlyA, honlyB, honlyA', honlyB', hmodules, hmodules'] at hlength hlength' ⊢
  omega

theorem covers_iff {xs ys : List (String × Value)} {field : String} (hx : (xs.map Prod.fst).Nodup)
    (hy : (ys.map Prod.fst).Nodup) : Covers Prod.fst (fun m ↦ fieldOf field m.2) xs ys ↔
      ∀ key v, xs.lookup key = some v → ∃ w, ys.lookup key = some w ∧ AlikeIn field v w := by
  simp only [Assoc.lookup_eq_some_iff_mem hx, Assoc.lookup_eq_some_iff_mem hy]
  constructor
  · intro h key v hv
    obtain ⟨⟨_, w⟩, hw, rfl, hequal⟩ := h (key, v) hv
    exact ⟨w, hw, hequal⟩
  · intro h m hm
    obtain ⟨w, hw, hequal⟩ := h m.1 m.2 hm
    exact ⟨(m.1, w), hw, rfl, hequal⟩

theorem AlikeIn.symm {v w : Value} {field : String} (hv : v.WellFormed) (hw : w.WellFormed)
    (h : AlikeIn field v w) : AlikeIn field w v :=
  Value.equals_symm _ _ (WellFormed.fieldOf hv field) (WellFormed.fieldOf hw field) h

theorem sameModules_iff (ha : IsExport a) (hb : IsExport b) :
    (∀ key, Option.Rel (AlikeIn "variables") ((modulesOf a).lookup key) ((modulesOf b).lookup key)) ↔
      SameModules (modulesOf a) (modulesOf b) := by
  have hna : ((modulesOf a).map Prod.fst).Nodup := (ha.wellFormed.get "module_config").nodup
  have hnb : ((modulesOf b).map Prod.fst).Nodup := (hb.wellFormed.get "module_config").nodup
  rw [SameModules, Same, covers_iff hna hnb, covers_iff hnb hna, ← forall_and]
  refine forall_congr' fun key ↦ ?_
  have hsymm : ∀ v w, (modulesOf a).lookup key = some v → (modulesOf b).lookup key = some w →
      AlikeIn "variables" v w → AlikeIn "variables" w v := fun v w hv hw ↦
    AlikeIn.symm ((ha.wellFormed.get _).of_mem_items (Assoc.mem_of_lookup hv))
      ((hb.wellFormed.get _).of_mem_items (Assoc.mem_of_lookup hw))
  revert hsymm
  cases (modulesOf a).lookup key <;> cases (modulesOf b).lookup key <;> simp

theorem totalDiffs_eq_zero_iff (ha : IsExport a) (hb : IsExport b) {d : Diff}
    (h : diffConfigs repr a b = .ok d) : d.totalDiffs = 0 ↔
      (∀ key, SeenAlike key (resourcesOf a) (resourcesOf b)) ∧ SameModules (modulesOf a) (modulesOf b) := by
  obtain ⟨d₀, hd, honlyA, honlyB, hchanged, hmodules, htotal⟩ := diffConfigs_eq repr ha hb
  obtain rfl : d₀ = d := Except.ok.inj (hd.symm.trans h)
  have hseen : (∀ key, SeenAlike key (resourcesOf a) (resourcesOf b)) ↔
      ∀ key, Option.Rel (AlikeIn "spec") ((flat a).items.lookup key) ((flat b).items.lookup key) := by
    simp only [lookup_flat]
    rfl
  rw [hseen, ← compare_eq_nil_iff, ← sameModules_iff ha hb, ← compare_eq_nil_iff, htotal, hmodules,
    ← honlyA, ← honlyB, ← hchanged]
  simp only [Comparison.size, Nat.add_eq_zero_iff, length_eq_zero_iff, map_eq_nil_iff, and_assoc]

/-! ### Keys of several resources -/

section Shared

variable {xs ys : List Value}

theorem mem_under {r : Value} : r ∈ under key xs ↔ r ∈ xs ∧ (identity r).key = key := by
  rw [under, mem_filter, decide_eq_true_iff]

theorem sameResources_iff_under : SameResources xs ys ↔ ∀ key, SameResources (under key xs) (under key ys) := by
  have hcovers : ∀ xs ys : List Value, Covers identity (fieldOf "spec") xs ys ↔
      ∀ key, Covers identity (fieldOf "spec") (under key xs) (under key ys) := fun xs ys ↦ by
    constructor
    · intro h key r hr
      obtain ⟨hr, hkey⟩ := mem_under.mp hr
      obtain ⟨r', hr', hid, hequal⟩ := h r hr
      exact ⟨r', mem_under.mpr ⟨hr', hid ▸ hkey⟩, hid, hequal⟩
    · intro h r hr
      obtain ⟨r', hr', hid, hequal⟩ := h _ r (mem_under.mpr ⟨hr, rfl⟩)
      exact ⟨r', (mem_under.mp hr').1, hid, hequal⟩
  rw [SameResources, Same, hcovers, hcovers, ← forall_and]
  rfl

variable (key) in
theorem length_under_le (hnodup : (xs.map identity).Nodup)
    (h : ∀ r ∈ xs, ∀ r' ∈ xs, (identity r).key = key → (identity r').key = key → identity r = identity r') :
    (under key xs).length ≤ 1 := by
  have hnodup' : ((under key xs).map identity).Nodup := hnodup.sublist (filter_sublist.map _)
  match hunder : under key xs with
  | [] => exact Nat.zero_le 1
  | [_] => exact le_rfl
  | r :: r' :: rs =>
    obtain ⟨hr, hkey⟩ := mem_under.mp (hunder ▸ mem_cons_self : r ∈ under key xs)
    obtain ⟨hr', hkey'⟩ := mem_under.mp (hunder ▸ mem_cons_of_mem _ mem_cons_self : r' ∈ under key xs)
    rw [hunder] at hnodup'
    exact absurd (h r hr r' hr' hkey hkey') (by simp_all)

end Shared

theorem seenAlike_def {xs ys : List Value} : SeenAlike key xs ys ↔
    Option.Rel (AlikeIn "spec") (under key xs).getLast? (under key ys).getLast? := Iff.rfl

theorem seenAlike_iff_of_not_shared (ha : IsExport a) (hb : IsExport b)
    (h : ¬ Shared key (resourcesOf a ++ resourcesOf b)) : SeenAlike key (resourcesOf a) (resourcesOf b) ↔
      SameResources (under key (resourcesOf a)) (under key (resourcesOf b)) := by
  have hid : ∀ r ∈ resourcesOf a ++ resourcesOf b, ∀ r' ∈ resourcesOf a ++ resourcesOf b,
      (identity r).key = key → (identity r').key = key → identity r = identity r' :=
    fun r hr r' hr' hkey hkey' ↦ by_contra fun hne ↦ h ⟨r, hr, r', hr', hkey, hkey', hne⟩
  have hla := length_under_le key ha.identified fun r hr r' hr' ↦
    hid r (mem_append_left _ hr) r' (mem_append_left _ hr')
  have hlb := length_under_le key hb.identified fun r hr r' hr' ↦
    hid r (mem_append_right _ hr) r' (mem_append_right _ hr')
  have hpair : ∀ r ∈ under key (resourcesOf a), ∀ r' ∈ under key (resourcesOf b),
      identity r' = identity r ∧ (AlikeIn "spec" r r' → AlikeIn "spec" r' r) := fun r hr r' hr' ↦ by
    obtain ⟨hra, hkey⟩ := mem_under.mp hr
    obtain ⟨hrb, hkey'⟩ := mem_under.mp hr'
    exact ⟨(hid r (mem_append_left _ hra) r' (mem_append_right _ hrb) hkey hkey').symm,
      AlikeIn.symm (mem_resourcesOf_wellFormed ha hra) (mem_resourcesOf_wellFormed hb hrb)⟩
  rw [seenAlike_def]
  revert hpair
  match under key (resourcesOf a), under key (resourcesOf b), hla, hlb with
  | [], [], _, _ => simp [SameResources, Same, Covers]
  | [], [_], _, _ => simp [SameResources, Same, Covers]
  | [_], [], _, _ => simp [SameResources, Same, Covers]
  | [r], [r'], _, _ =>
    intro hpair
    obtain ⟨heq, hsymm⟩ := hpair r mem_cons_self r' mem_cons_self
    simp only [getLast?_singleton, Option.rel_some_some, SameResources, Same, Covers,
      mem_singleton, forall_eq, exists_eq_left, heq, true_and]
    exact ⟨fun h ↦ ⟨h, hsymm h⟩, And.left⟩

theorem Identity.key_inj {i j : Identity} (hi : '/' ∉ i.kind.toList ++ i.ns.toList ++ i.name.toList)
    (hj : '/' ∉ j.kind.toList ++ j.ns.toList ++ j.name.toList) (h : i.key = j.key) :
    i.kind = j.kind ∧ i.ns = j.ns ∧ i.name = j.name := by
  have hsplit : ∀ k : Identity, '/' ∉ k.kind.toList ++ k.ns.toList ++ k.name.toList →
      k.key.toList.splitOn '/' = if k.ns.isEmpty then [k.kind.toList, k.name.toList]
        else [k.kind.toList, k.ns.toList, k.name.toList] := fun k hk ↦ by
    simp only [mem_append, not_or] at hk
    have hparts : ∀ parts : List (List Char), (∀ part ∈ parts, '/' ∉ part) → parts ≠ [] →
        (['/'].intercalate parts).splitOn '/' = parts := fun parts ↦ splitOn_intercalate '/'
    unfold Identity.key
    split
    · rw [← hparts [k.kind.toList, k.name.toList] (by simp [hk]) (by simp)]
      simp [List.intercalate, String.toList_append]
    · rw [← hparts [k.kind.toList, k.ns.toList, k.name.toList] (by simp [hk]) (by simp)]
      simp [List.intercalate, String.toList_append]
  have hparts := (hsplit i hi).symm.trans ((congrArg (fun k ↦ k.toList.splitOn '/') h).trans (hsplit j hj))
  have hempty : ∀ {s t : String}, s.isEmpty = true → t.isEmpty = true → s = t := fun hs ht ↦
    (String.isEmpty_iff.mp hs).trans (String.isEmpty_iff.mp ht).symm
  by_cases hni : i.ns.isEmpty <;> by_cases hnj : j.ns.isEmpty <;>
    simp [hni, hnj, String.toList_inj] at hparts
  · exact ⟨hparts.1, hempty hni hnj, hparts.2⟩
  · exact hparts

theorem sharedKeysSeen_of_not_shared (h : ∀ key, ¬ Shared key (resourcesOf a ++ resourcesOf b)) :
    SharedKeysSeen a b := fun _ _ ↦
  ⟨fun _ key hkey ↦ absurd hkey (h key), fun _ key hkey ↦ absurd hkey (h key)⟩

/-- `diff_configs` is empty for two exports just if they are the same, and does not depend on their
order otherwise than in its sides, exactly if the resources of different API versions that have one
kind, namespace and name do not hide a difference, nor show one that is not there. -/
theorem diffsFaithfully_iff (repr : Value → String) (a b : Value) (ha : IsExport a) (hb : IsExport b) :
    DiffsFaithfully repr a b ↔ SharedKeysSeen a b := by
  obtain ⟨d, hd, -⟩ := diffConfigs_eq repr ha hb
  obtain ⟨d', hd', -⟩ := diffConfigs_eq repr hb ha
  have hfaithful : DiffsFaithfully repr a b ↔ (d.totalDiffs = 0 ↔
      SameResources (resourcesOf a) (resourcesOf b) ∧ SameModules (modulesOf a) (modulesOf b)) := by
    constructor
    · rintro ⟨e, e', he, -, -, htotal⟩
      obtain rfl : d = e := Except.ok.inj (hd.symm.trans he)
      exact htotal
    · exact fun htotal ↦ ⟨d, d', hd, hd', swapped ha hb hd hd', htotal⟩
  rw [hfaithful, totalDiffs_eq_zero_iff ha hb hd, sameResources_iff_under]
  -- both sides of the equivalence are about all keys, those of one identity and the others
  have hsplit : ∀ P : String → Prop, (∀ key, P key) ↔
      (∀ key, ¬ Shared key (resourcesOf a ++ resourcesOf b) → P key) ∧
        ∀ key, Shared key (resourcesOf a ++ resourcesOf b) → P key := fun P ↦
    ⟨fun h ↦ ⟨fun key _ ↦ h key, fun key _ ↦ h key⟩, fun h key ↦ (em _).elim (h.2 key) (h.1 key)⟩
  have halone : (∀ key, ¬ Shared key (resourcesOf a ++ resourcesOf b) →
      SeenAlike key (resourcesOf a) (resourcesOf b)) ↔
      ∀ key, ¬ Shared key (resourcesOf a ++ resourcesOf b) →
        SameResources (under key (resourcesOf a)) (under key (resourcesOf b)) :=
    forall₂_congr fun key h ↦ seenAlike_iff_of_not_shared ha hb h
  rw [hsplit (fun key ↦ SeenAlike key _ _), hsplit (fun key ↦ SameResources _ _), halone, SharedKeysSeen]
  tauto

end Exports

/-! ### Examples -/

def exampleResource (apiVersion kind name : String) (size : Int) : Value :=
  .dict [("apiVersion", .str apiVersion), ("kind", .str kind),
    ("metadata", .dict [("name", .str name), ("namespace", .str "dpf")]),
    ("spec", .dict [("size", .int size)])]

def exampleExport (resources : List Value) : Value :=
  .dict [("bnk_forge_export", .dict [("cluster", .dict [("name", .str "lab")])]),
    ("resources", .dict [("dpf_provisioning", .list resources)]), ("module_config", .dict [])]

theorem resourcesOf_exampleExport (resources : List Value) :
    resourcesOf (exampleExport resources) = resources := append_nil resources

theorem exampleExport_isExport {resources : List Value} (hwell : Value.WellFormedList resources)
    (hresource : ∀ r ∈ resources, IsResource r) (hnodup : (resources.map identity).Nodup) :
    IsExport (exampleExport resources) where
  wellFormed := by simp [exampleExport, Value.WellFormed, Value.WellFormedItems, hwell]
  resources := rfl
  categories := forall_mem_singleton.mpr rfl
  isResource := (resourcesOf_exampleExport resources).symm ▸ hresource
  modules := rfl
  isModule := forall_mem_nil _
  cluster := rfl
  identified := (resourcesOf_exampleExport resources).symm ▸ hnodup

theorem exampleResource_isResource (apiVersion kind name : String) (size : Int) :
    IsResource (exampleResource apiVersion kind name size) := ⟨rfl, rfl, rfl, .inl rfl⟩

theorem exampleResource_wellFormed (apiVersion kind name : String) (size : Int) :
    (exampleResource apiVersion kind name size).WellFormed := by
  simp [exampleResource, Value.WellFormed, Value.WellFormedItems]

def flavors (size : Int) : Value :=
  exampleExport [exampleResource "provisioning.dpu.nvidia.com/v1alpha1" "DPUFlavor" "hbn" size]

theorem flavors_isExport (size : Int) : IsExport (flavors size) :=
  exampleExport_isExport ⟨exampleResource_wellFormed .., trivial⟩
    (forall_mem_singleton.mpr (exampleResource_isResource ..)) (nodup_singleton _)

theorem flavors_diffsFaithfully : IsExport (flavors 4) ∧ IsExport (flavors 8) ∧
    DiffsFaithfully (fun _ ↦ "") (flavors 4) (flavors 8) := by
  refine ⟨flavors_isExport 4, flavors_isExport 8,
    (diffsFaithfully_iff _ _ _ (flavors_isExport 4) (flavors_isExport 8)).mpr
      (sharedKeysSeen_of_not_shared ?_)⟩
  rintro key ⟨r, hr, r', hr', -, -, hne⟩
  simp only [flavors, resourcesOf_exampleExport, List.mem_append, List.mem_singleton] at hr hr'
  rcases hr with rfl | rfl <;> rcases hr' with rfl | rfl <;> exact hne rfl

/-- Two resources of one kind, namespace and name in two API groups. -/
def sets : Value :=
  exampleExport [exampleResource "provisioning.dpu.nvidia.com/v1alpha1" "DPUSet" "workers" 10,
    exampleResource "operator.dpu.nvidia.com/v1alpha1" "DPUSet" "workers" 20]

/-- The second one of them. -/
def oneSet : Value := exampleExport [exampleResource "operator.dpu.nvidia.com/v1alpha1" "DPUSet" "workers" 20]

/-- The resource that one configuration lacks is not reported. -/
theorem set_hidden : IsExport sets ∧ IsExport oneSet ∧ ¬ DiffsFaithfully (fun _ ↦ "") sets oneSet := by
  refine ⟨?_, ?_, ?_⟩
  · refine exampleExport_isExport ⟨exampleResource_wellFormed .., exampleResource_wellFormed .., trivial⟩
      ?_ (by decide +kernel)
    simp only [List.forall_mem_cons]
    exact ⟨exampleResource_isResource .., exampleResource_isResource .., List.forall_mem_nil _⟩
  · exact exampleExport_isExport ⟨exampleResource_wellFormed .., trivial⟩
      (List.forall_mem_singleton.mpr (exampleResource_isResource ..)) (List.nodup_singleton _)
  · rintro ⟨d, d', hd, -, -, htotal⟩
    have hzero : (diffConfigs (fun _ ↦ "") sets oneSet).toOption.map Diff.totalDiffs = some 0 := by
      decide +kernel
    rw [hd] at hzero
    obtain ⟨⟨hcovers, -⟩, -⟩ := htotal.mp (Option.some.inj hzero)
    simp only [sets, oneSet, resourcesOf_exampleExport] at hcovers
    obtain ⟨r, hr, hid, -⟩ := hcovers _ List.mem_cons_self
    obtain rfl := List.mem_singleton.mp hr
    exact absurd hid (by decide +kernel)

end BnkForge.Export
