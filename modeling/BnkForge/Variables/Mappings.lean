import BnkForge.Lib.Base64
import BnkForge.Variables.Rows

/-!
# Variable mappings

`apply_variable_mappings` (`backend/services/execution/variable_assembler.py:1308–1444`): variables are
renamed and transformed all at once. The targets get what their sources were before, whatever the order of
the mappings; the sources that are not targets themselves are removed.
-/

namespace BnkForge.Variables

open Python List

/-- A row of `variable_mappings`. -/
structure VariableMapping where
  projectModuleId : Nat
  sourceVariableName : String
  targetVariableName : String
  transformType : Option String
  isActive : Bool
  deriving DecidableEq, Repr

/-- What Python does with texts: `str` of floats, lists and dicts, `str.upper`, `str.lower` and
`json.dumps`. -/
structure TextFunctions where
  repr : Value → String
  upper : String → String
  lower : String → String
  dumps : Value → String

/-! ### Transformations -/

/-- `_looks_like_jwt`. -/
def looksLikeJwt (value : String) : Bool :=
  let parts := value.toList.splitOn '.'
  parts.length == 3 && "eyJ".toList.isPrefixOf (parts.headD [])

section

variable (text : TextFunctions)

/-- `apply_transformation`. -/
def applyTransformation (value : Value) (transformType : Option String) : Value :=
  match transformType.filter (· ≠ "") with
  | none => value
  | some transform =>
    let strValue := value.toText text.repr
    if transform = "none" then value
    else if transform = "uppercase" then .str (text.upper strValue)
    else if transform = "lowercase" then .str (text.lower strValue)
    else if transform = "json_encode" then .str (text.dumps value)
    else if transform = "base64" then
      if looksLikeJwt strValue then .str strValue
      else .str (String.ofList (b64encode (encode strValue.toList)))
    else value

/-- `_get_raw_encoding_vars`. -/
def getRawEncodingVars (m : ProjectModule) : List String :=
  (m.library.inputs.all.filter fun inp ↦ inp.encoding = some "raw").map ModuleInput.name

def transformedValue (rawVars : List String) (mapping : VariableMapping) (originalValue : Value) : Value :=
  if mapping.targetVariableName ∈ rawVars ∨ mapping.sourceVariableName ∈ rawVars then originalValue
  else applyTransformation text originalValue mapping.transformType

/-! ### The mappings -/

/-- `mapped_vars` and `sources_to_delete`. -/
structure Collected where
  mappedVars : Vars
  sourcesToDelete : List String

/-- One round of the loop over the mappings. -/
def collect (rawVars : List String) (vars : Vars) (s : Collected) (mapping : VariableMapping) :
    Collected :=
  match vars.get? mapping.sourceVariableName with
  | none => s
  | some originalValue =>
    { mappedVars := s.mappedVars.set mapping.targetVariableName
        (transformedValue text rawVars mapping originalValue)
      sourcesToDelete :=
        if mapping.sourceVariableName ≠ mapping.targetVariableName then
          s.sourcesToDelete.insert mapping.sourceVariableName
        else s.sourcesToDelete }

def activeMappings (table : List VariableMapping) (m : ProjectModule) : List VariableMapping :=
  table.filter fun mapping ↦ mapping.projectModuleId = m.id ∧ mapping.isActive = true

/-- `apply_variable_mappings`. -/
def applyVariableMappings (table : List VariableMapping) (m : ProjectModule) (vars : Vars) : Vars :=
  let mappings := activeMappings table m
  if mappings.isEmpty then vars
  else
    let s := mappings.foldl (collect text (getRawEncodingVars m) vars) ⟨Dict.empty, []⟩
    (vars.update s.mappedVars).eraseAll (s.sourcesToDelete.filter (· ∉ s.mappedVars))

end

section

variable {text : TextFunctions} {rawVars : List String} {vars : Vars} {mappings : List VariableMapping}
  {s : Collected} {mapping : VariableMapping} {key : String} {value : Value}

def Gives (text : TextFunctions) (rawVars : List String) (vars : Vars) (mappings : List VariableMapping)
    (key : String) (value : Value) : Prop :=
  ∃ mapping ∈ mappings, mapping.targetVariableName = key ∧ ∃ originalValue,
    vars.get? mapping.sourceVariableName = some originalValue ∧
    value = transformedValue text rawVars mapping originalValue

def given (text : TextFunctions) (rawVars : List String) (vars : Vars) (mappings : List VariableMapping)
    (key : String) : Option Value :=
  mappings.findSome? fun mapping ↦
    if mapping.targetVariableName = key then
      (vars.get? mapping.sourceVariableName).map (transformedValue text rawVars mapping)
    else none

/-! ### The loop -/

theorem given_eq_some (h : given text rawVars vars mappings key = some value) :
    Gives text rawVars vars mappings key value := by
  obtain ⟨mapping, hmem, hvalue⟩ := exists_of_findSome?_eq_some h
  split at hvalue
  case isTrue htarget =>
    obtain ⟨originalValue, hget, rfl⟩ := Option.map_eq_some_iff.mp hvalue
    exact ⟨mapping, hmem, htarget, originalValue, hget, rfl⟩
  case isFalse => cases hvalue

theorem given_eq_some_iff (hdistinct : (mappings.map VariableMapping.targetVariableName).Nodup) :
    given text rawVars vars mappings key = some value ↔ Gives text rawVars vars mappings key value := by
  refine ⟨given_eq_some, ?_⟩
  rintro ⟨mapping, hmem, htarget, originalValue, hget, rfl⟩
  cases h : given text rawVars vars mappings key with
  | none =>
    have hnone := findSome?_eq_none_iff.mp h mapping hmem
    rw [if_pos htarget, hget] at hnone
    cases hnone
  | some value =>
    obtain ⟨mapping', hmem', htarget', originalValue', hget', rfl⟩ := given_eq_some h
    cases inj_on_of_nodup_map hdistinct hmem hmem' (htarget.trans htarget'.symm)
    rw [Option.some.inj (hget.symm.trans hget')]

theorem mem_sources_collect : key ∈ (collect text rawVars vars s mapping).sourcesToDelete ↔
    key ∈ s.sourcesToDelete ∨
      (mapping.sourceVariableName = key ∧ key ∈ vars ∧ mapping.targetVariableName ≠ key) := by
  cases h : vars.get? mapping.sourceVariableName with
  | none =>
    have hnot : mapping.sourceVariableName ∉ vars := Dict.get?_eq_none_iff.mp h
    rw [collect, h]
    refine (or_iff_left ?_).symm
    rintro ⟨rfl, hin, -⟩
    exact hnot hin
  | some originalValue =>
    have hin : mapping.sourceVariableName ∈ vars := Dict.mem_iff.mpr ⟨_, h⟩
    rw [collect, h]
    dsimp only
    split
    case isTrue hne =>
      rw [mem_insert_iff, or_comm]
      refine or_congr Iff.rfl ⟨?_, fun hkey ↦ hkey.1.symm⟩
      rintro rfl
      exact ⟨rfl, hin, Ne.symm hne⟩
    case isFalse heq =>
      refine (or_iff_left ?_).symm
      rintro ⟨rfl, -, hne⟩
      exact hne (not_not.mp heq).symm

theorem collect_mappedVars : (collect text rawVars vars s mapping).mappedVars.get? key =
    (given text rawVars vars [mapping] key).or (s.mappedVars.get? key) := by
  rw [collect, given, findSome?_singleton]
  cases h : vars.get? mapping.sourceVariableName with
  | none => simp
  | some originalValue =>
    dsimp only
    rw [Dict.get?_set]
    by_cases hkey : key = mapping.targetVariableName
    · rw [if_pos hkey, if_pos hkey.symm]
      rfl
    · rw [if_neg hkey, if_neg (Ne.symm hkey)]
      rfl

theorem mappedVars_foldl (hdistinct : (mappings.map VariableMapping.targetVariableName).Nodup) :
    (mappings.foldl (collect text rawVars vars) s).mappedVars.get? key =
      (given text rawVars vars mappings key).or (s.mappedVars.get? key) := by
  induction mappings generalizing s with
  | nil => rfl
  | cons mapping mappings ih =>
    obtain ⟨hnot, hdistinct⟩ := nodup_cons.mp hdistinct
    have hcons : given text rawVars vars (mapping :: mappings) key =
        (given text rawVars vars [mapping] key).or (given text rawVars vars mappings key) := by
      rw [given, given, given, ← findSome?_append]
      rfl
    rw [foldl_cons, ih hdistinct, collect_mappedVars, hcons, Option.or_assoc]
    by_cases hkey : mapping.targetVariableName = key
    · -- the target is given to once only
      have hnone : given text rawVars vars mappings key = none := by
        refine findSome?_eq_none_iff.mpr fun mapping' hmem ↦ if_neg fun htarget ↦ hnot ?_
        exact mem_map.mpr ⟨mapping', hmem, htarget.trans hkey.symm⟩
      rw [hnone, Option.none_or, Option.none_or]
    · have hnone : given text rawVars vars [mapping] key = none := by
        rw [given, findSome?_singleton, if_neg hkey]
      rw [hnone, Option.none_or, Option.none_or]

theorem mem_sources_foldl : key ∈ (mappings.foldl (collect text rawVars vars) s).sourcesToDelete ↔
    key ∈ s.sourcesToDelete ∨ ∃ mapping ∈ mappings,
      mapping.sourceVariableName = key ∧ key ∈ vars ∧ mapping.targetVariableName ≠ key := by
  induction mappings generalizing s with
  | nil => simp
  | cons mapping mappings ih =>
    rw [foldl_cons, ih, mem_sources_collect, or_assoc, exists_mem_cons_iff]

/-! ### The result -/

theorem get?_applyVariableMappings {table : List VariableMapping} {m : ProjectModule}
    (hdistinct : ((activeMappings table m).map VariableMapping.targetVariableName).Nodup) :
    (applyVariableMappings text table m vars).get? key =
      (given text (getRawEncodingVars m) vars (activeMappings table m) key).or
        (if ∃ mapping ∈ activeMappings table m, mapping.sourceVariableName = key then none
          else vars.get? key) := by
  unfold applyVariableMappings
  dsimp only
  split
  case isTrue hempty =>
    rw [List.isEmpty_iff.mp hempty]
    simp [given]
  case isFalse =>
    have hmapped : ((activeMappings table m).foldl (collect text (getRawEncodingVars m) vars)
        ⟨Dict.empty, []⟩).mappedVars.get? key =
        given text (getRawEncodingVars m) vars (activeMappings table m) key := by
      rw [mappedVars_foldl hdistinct, Dict.get?_empty, Option.or_none]
    have hdelete := @mem_sources_foldl text (getRawEncodingVars m) vars (activeMappings table m)
      ⟨Dict.empty, []⟩ key
    rw [or_iff_right not_mem_nil] at hdelete
    generalize (activeMappings table m).foldl (collect text (getRawEncodingVars m) vars)
      ⟨Dict.empty, []⟩ = s at hmapped hdelete ⊢
    rw [Dict.get?_eraseAll, Dict.get?_update, hmapped]
    cases hgiven : given text (getRawEncodingVars m) vars (activeMappings table m) key with
    | some v =>
      have hkept : key ∈ s.mappedVars := Dict.mem_iff.mpr ⟨v, hmapped.trans hgiven⟩
      rw [if_neg]
      · rfl
      · intro h
        exact absurd hkept (of_decide_eq_true (mem_filter.mp h).2)
    | none =>
      have hnot : key ∉ s.mappedVars := Dict.get?_eq_none_iff.mp (hmapped.trans hgiven)
      rw [Option.none_or, Option.none_or]
      by_cases hsource : ∃ mapping ∈ activeMappings table m, mapping.sourceVariableName = key
      · rw [if_pos hsource]
        by_cases hin : key ∈ vars
        · refine if_pos (mem_filter.mpr ⟨hdelete.mpr ?_, decide_eq_true hnot⟩)
          obtain ⟨mapping, hmem, hkey⟩ := hsource
          refine ⟨mapping, hmem, hkey, hin, fun htarget ↦ ?_⟩
          -- a mapping onto itself would give the key a value
          obtain ⟨v, hv⟩ := Dict.mem_iff.mp hin
          cases hgiven.symm.trans ((given_eq_some_iff hdistinct).mpr
            ⟨mapping, hmem, htarget, v, hkey ▸ hv, rfl⟩)
        · rw [Dict.get?_eq_none_iff.mpr hin, ite_self]
      · rw [if_neg hsource, if_neg]
        intro h
        obtain ⟨mapping, hmem, hkey, -⟩ := hdelete.mp (mem_filter.mp h).1
        exact hsource ⟨mapping, hmem, hkey⟩

end

/-- The targets of the mappings whose sources are there have the transformed values of these, such sources
are gone where they are no such targets, and everything else is as it was. -/
structure Substituted (text : TextFunctions) (rawVars : List String) (vars : Vars)
    (mappings : List VariableMapping) (result : Vars) : Prop where
  targets : ∀ mapping ∈ mappings, ∀ originalValue,
    vars.get? mapping.sourceVariableName = some originalValue →
    result.get? mapping.targetVariableName = some (transformedValue text rawVars mapping originalValue)
  sources : ∀ mapping ∈ mappings, mapping.sourceVariableName ∈ vars →
    (∀ mapping' ∈ mappings, mapping'.sourceVariableName ∈ vars →
      mapping'.targetVariableName ≠ mapping.sourceVariableName) →
    mapping.sourceVariableName ∉ result
  others : ∀ key, (∀ mapping ∈ mappings, mapping.sourceVariableName ∈ vars →
    mapping.targetVariableName ≠ key ∧ mapping.sourceVariableName ≠ key) →
    result.get? key = vars.get? key

/-- Mappings with distinct targets are a simultaneous substitution, and their order does not matter. -/
theorem applyVariableMappings_simultaneous (text : TextFunctions) (table : List VariableMapping)
    (m : ProjectModule) (vars : Vars)
    (hdistinct : ((activeMappings table m).map VariableMapping.targetVariableName).Nodup) :
    Substituted text (getRawEncodingVars m) vars (activeMappings table m)
      (applyVariableMappings text table m vars) ∧
    ∀ table' : List VariableMapping, table'.Perm table → ∀ key,
      (applyVariableMappings text table' m vars).get? key =
        (applyVariableMappings text table m vars).get? key := by
  constructor
  · constructor
    · intro mapping hmem originalValue hget
      rw [get?_applyVariableMappings hdistinct,
        (given_eq_some_iff hdistinct).mpr ⟨mapping, hmem, rfl, originalValue, hget, rfl⟩]
      rfl
    · intro mapping hmem hin hfree
      rw [← Dict.get?_eq_none_iff, get?_applyVariableMappings hdistinct, if_pos ⟨mapping, hmem, rfl⟩,
        Option.or_none, Option.eq_none_iff_forall_ne_some]
      intro v hv
      obtain ⟨mapping', hmem', htarget, originalValue, hget, -⟩ := given_eq_some hv
      exact hfree mapping' hmem' (Dict.mem_iff.mpr ⟨_, hget⟩) htarget
    · intro key hfree
      have hnone : given text (getRawEncodingVars m) vars (activeMappings table m) key = none := by
        rw [Option.eq_none_iff_forall_ne_some]
        intro v hv
        obtain ⟨mapping', hmem', htarget, originalValue, hget, -⟩ := given_eq_some hv
        exact (hfree mapping' hmem' (Dict.mem_iff.mpr ⟨_, hget⟩)).1 htarget
      rw [get?_applyVariableMappings hdistinct, hnone, Option.none_or]
      split
      case isTrue hsource =>
        obtain ⟨mapping, hmem, hkey⟩ := hsource
        refine (Dict.get?_eq_none_iff.mpr fun hin ↦ ?_).symm
        exact (hfree mapping hmem (hkey ▸ hin)).2 hkey
      case isFalse => rfl
  · intro table' hperm key
    have hactive : (activeMappings table' m).Perm (activeMappings table m) := hperm.filter _
    have hdistinct' := (hactive.map VariableMapping.targetVariableName).nodup_iff.mpr hdistinct
    have hgiven : given text (getRawEncodingVars m) vars (activeMappings table' m) key =
        given text (getRawEncodingVars m) vars (activeMappings table m) key := by
      refine Option.ext fun v ↦ ?_
      rw [given_eq_some_iff hdistinct', given_eq_some_iff hdistinct]
      exact exists_congr fun mapping ↦ and_congr_left fun _ ↦ hactive.mem_iff
    rw [get?_applyVariableMappings hdistinct', get?_applyVariableMappings hdistinct, hgiven]
    simp only [hactive.mem_iff]

/-- A module that declares no inputs, with its mappings. -/
def plainModule : ProjectModule := ⟨1, 1, none, false, [], Dict.empty, ⟨none, [], []⟩⟩

def plainText : TextFunctions := ⟨fun _ ↦ "", id, id, fun _ ↦ ""⟩

/-- Two variables are swapped. -/
theorem applyVariableMappings_simultaneous_swap :
    (applyVariableMappings plainText [⟨1, "a", "b", none, true⟩, ⟨1, "b", "a", none, true⟩] plainModule
      ⟨[("a", .int 1), ("b", .int 2)], by decide⟩).get? "a" = some (.int 2) ∧
    (applyVariableMappings plainText [⟨1, "b", "a", none, true⟩, ⟨1, "a", "b", none, true⟩] plainModule
      ⟨[("a", .int 1), ("b", .int 2)], by decide⟩).get? "a" = some (.int 2) := by
  obtain ⟨hsubstituted, hperm⟩ := applyVariableMappings_simultaneous plainText
    [⟨1, "a", "b", none, true⟩, ⟨1, "b", "a", none, true⟩] plainModule
    ⟨[("a", .int 1), ("b", .int 2)], by decide⟩ (by decide)
  have ha := hsubstituted.targets ⟨1, "b", "a", none, true⟩ (by decide) (.int 2) rfl
  exact ⟨ha, (hperm _ (List.Perm.swap _ _ _) "a").trans ha⟩

/-- A source that is the target of a mapping whose own source is not there is removed. -/
theorem target_of_absent_removed :
    ¬ ∀ (text : TextFunctions) (table : List VariableMapping) (m : ProjectModule) (vars : Vars),
      ((activeMappings table m).map VariableMapping.targetVariableName).Nodup → ∀ key,
      (∀ mapping ∈ activeMappings table m, mapping.sourceVariableName ∈ vars →
        mapping.targetVariableName ≠ key) →
      (∀ mapping ∈ activeMappings table m, mapping.sourceVariableName = key →
        key ∈ (activeMappings table m).map VariableMapping.targetVariableName) →
      (applyVariableMappings text table m vars).get? key = vars.get? key := by
  intro h
  have hkept := h plainText [⟨1, "a", "b", none, true⟩, ⟨1, "b", "c", none, true⟩] plainModule
    ⟨[("b", .int 2)], by decide⟩ (by decide) "b" (by decide) (by decide)
  cases hkept

end BnkForge.Variables
