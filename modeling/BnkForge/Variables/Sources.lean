import BnkForge.Variables.Wiring

/-!
# Inputs without a source

A required input has a source when its module or the fallback search has a value for it, when it declares a
default, or when the variables have it already. The wiring raises for every input without a source, and for
required inputs of a module that has outputs but not the one that is asked for, whatever other source they
have.
-/

namespace BnkForge.Variables

open Python List

section

variable (rows : List ProjectModule) (m : ProjectModule) (requiredNames : List String) (vars : Vars)
  (inp : ModuleInput)

/-- The value that the module of an input has for it. -/
def fromDependency : Option Value :=
  match (fromPath inp).map (dependencyOf rows m) with
  | some (.ok (some dep)) => outputAt dep inp.fromOutput
  | _ => none

def fromFallback : Option Value :=
  match (fromPath inp).map (dependencyOf rows m) with
  | some (.ok none) => resolveFromDependencyOutputs rows m inp.fromOutput
  | _ => none

/-- An input of a module that has a source other than the variables. -/
def Sourced : Prop :=
  (fromDependency rows m inp).isSome = true ∨ (fromFallback rows m inp).isSome = true ∨
    inp.default.isNone = false

/-- A required input of a module without any source when its turn comes, after some other inputs. -/
structure Lacks (before : List ModuleInput) : Prop where
  wired : fromPath inp ≠ none
  required : inp.name ∈ requiredNames
  unsourced : ¬ Sourced rows m inp
  absent : inp.name ∉ vars
  not_before : ∀ b ∈ before, b.name = inp.name → fromPath b ≠ none → ¬ Sourced rows m b

def Lacking (inps : List ModuleInput) : Prop :=
  ∃ before inp after, inps = before ++ inp :: after ∧ Lacks rows m requiredNames vars inp before

/-- The lookup of the path of an input raises. -/
def Fails : Prop := ∃ path e, fromPath inp = some path ∧ dependencyOf rows m path = .error e

def Misses : Prop :=
  inp.name ∈ requiredNames ∧ ∃ path dep, fromPath inp = some path ∧
    dependencyOf rows m path = .ok (some dep) ∧ dep.hasOutputs = true ∧ outputAt dep inp.fromOutput = none

def Adds (vars' : Vars) : Prop :=
  ∀ name ∈ requiredNames, name ∈ vars' ↔
    name ∈ vars ∨ (name = inp.name ∧ fromPath inp ≠ none ∧ Sourced rows m inp)

/-- Why an input raises. -/
def Stops : Prop :=
  Fails rows m inp ∨ Misses rows m requiredNames inp ∨ Lacks rows m requiredNames vars inp []

/-- An input raises for a reason, or there is none and it adds what has a source. -/
def Expected (result : Vars × Option WiringError) : Prop :=
  (result.2.isSome = true ∧ Stops rows m requiredNames vars inp) ∨
  (result.2 = none ∧ ¬ Stops rows m requiredNames vars inp ∧
    Adds rows m requiredNames vars inp result.1)

end

section

variable {rows : List ProjectModule} {m : ProjectModule} {requiredNames : List String} {vars vars' : Vars}
  {inp : ModuleInput} {inps : List ModuleInput} {destroy : Bool} {path : String}

/-! ### One input -/

theorem mem_set_of_required {name : String} {value : Value} :
    name ∈ vars.set inp.name value ↔ name ∈ vars ∨ name = inp.name := by
  rw [Dict.mem_set, or_comm]

theorem not_fails {found : Option ProjectModule} (hpath : fromPath inp = some path)
    (hdep : dependencyOf rows m path = .ok found) : ¬ Fails rows m inp := by
  rintro ⟨path', e, hpath', hfail⟩
  cases hpath.symm.trans hpath'
  cases hdep.symm.trans hfail

theorem wireWithout_expected {fallbackValue : Option Value} (hpath : fromPath inp = some path)
    (hfails : ¬ Fails rows m inp) (hmisses : ¬ Misses rows m requiredNames inp)
    (hdependency : fromDependency rows m inp = none) (hfallback : fromFallback rows m inp = fallbackValue) :
    Expected rows m requiredNames vars inp
      (wireWithout (decide (inp.name ∈ requiredNames)) false vars inp path fallbackValue) := by
  have hwired : fromPath inp ≠ none := by rw [hpath]; exact nofun
  have hstops : ¬ Lacks rows m requiredNames vars inp [] → ¬ Stops rows m requiredNames vars inp :=
    fun h ↦ not_or.mpr ⟨hfails, not_or.mpr ⟨hmisses, h⟩⟩
  cases fallbackValue with
  | some value =>
    have hsourced : Sourced rows m inp := Or.inr (Or.inl (by rw [hfallback]; rfl))
    refine Or.inr ⟨rfl, hstops fun h ↦ h.unsourced hsourced, fun name _ ↦ ?_⟩
    unfold wireWithout
    dsimp only
    split
    case isTrue hin =>
      refine (or_iff_left_of_imp ?_).symm
      rintro ⟨rfl, -⟩
      exact hin
    case isFalse =>
      rw [mem_set_of_required]
      exact or_congr Iff.rfl (and_iff_left ⟨hwired, hsourced⟩).symm
  | none =>
    unfold wireWithout
    dsimp only
    have hsourced : Sourced rows m inp ↔ inp.default.isNone = false := by
      rw [Sourced, hdependency, hfallback]
      simp
    by_cases hdefault : inp.name ∉ vars ∧ inp.default.isNone = false
    · rw [if_pos hdefault]
      refine Or.inr ⟨rfl, hstops fun h ↦ h.unsourced (hsourced.mpr hdefault.2), fun name _ ↦ ?_⟩
      rw [mem_set_of_required]
      exact or_congr Iff.rfl (and_iff_left ⟨hwired, hsourced.mpr hdefault.2⟩).symm
    · rw [if_neg hdefault]
      by_cases hraise : decide (inp.name ∈ requiredNames) = true ∧ false = false ∧ inp.name ∉ vars
      · rw [if_pos hraise]
        refine Or.inl ⟨rfl, Or.inr (Or.inr ⟨hwired, of_decide_eq_true hraise.1, fun hs ↦ ?_,
          hraise.2.2, nofun⟩)⟩
        exact hdefault ⟨hraise.2.2, hsourced.mp hs⟩
      · rw [if_neg hraise]
        refine Or.inr ⟨rfl, hstops fun h ↦ hraise ⟨decide_eq_true h.required, rfl, h.absent⟩,
          fun name _ ↦ (or_iff_left_of_imp ?_).symm⟩
        rintro ⟨rfl, -, hs⟩
        by_contra hnot
        exact hdefault ⟨hnot, hsourced.mp hs⟩

theorem wireInput_expected :
    Expected rows m requiredNames vars inp (wireInput rows m requiredNames false vars inp) := by
  unfold wireInput
  cases hpath : fromPath inp with
  | none =>
    refine Or.inr ⟨rfl, ?_, fun name _ ↦ (or_iff_left fun h ↦ h.2.1 hpath).symm⟩
    rintro (⟨path, e, hpath', -⟩ | ⟨-, path, dep, hpath', -⟩ | hlacks)
    · cases hpath.symm.trans hpath'
    · cases hpath.symm.trans hpath'
    · exact hlacks.wired hpath
  | some path =>
    dsimp only
    cases hdep : dependencyOf rows m path with
    | error e => exact Or.inl ⟨rfl, Or.inl ⟨path, e, hpath, hdep⟩⟩
    | ok found =>
      have hfails := not_fails hpath hdep
      have hlookup : (fromPath inp).map (dependencyOf rows m) = some (.ok found) := by
        rw [hpath, Option.map_some, hdep]
      cases found with
      | none =>
        refine wireWithout_expected hpath hfails ?_ ?_ ?_
        · rintro ⟨-, path', dep, hpath', hdep', -⟩
          cases hpath.symm.trans hpath'
          cases hdep.symm.trans hdep'
        · rw [fromDependency, hlookup]
        · rw [fromFallback, hlookup]
      | some dep =>
        have hdependency : fromDependency rows m inp = outputAt dep inp.fromOutput := by
          rw [fromDependency, hlookup]
        have hfallback : fromFallback rows m inp = none := by
          rw [fromFallback, hlookup]
        have hmisses : Misses rows m requiredNames inp ↔
            inp.name ∈ requiredNames ∧ dep.hasOutputs = true ∧ outputAt dep inp.fromOutput = none := by
          refine and_congr_right fun _ ↦ ⟨?_, fun h ↦ ⟨path, dep, hpath, hdep, h⟩⟩
          rintro ⟨path', dep', hpath', hdep', h⟩
          cases hpath.symm.trans hpath'
          cases hdep.symm.trans hdep'
          exact h
        dsimp only
        by_cases houtputs : dep.hasOutputs = true
        · rw [if_pos houtputs]
          cases hvalue : outputAt dep inp.fromOutput with
          | some value =>
            have hsourced : Sourced rows m inp := Or.inl (by rw [hdependency, hvalue]; rfl)
            refine Or.inr ⟨rfl, ?_, fun name _ ↦ ?_⟩
            · rintro (h | h | h)
              · exact hfails h
              · cases hvalue.symm.trans (hmisses.mp h).2.2
              · exact h.unsourced hsourced
            · rw [mem_set_of_required]
              exact or_congr Iff.rfl (and_iff_left ⟨by rw [hpath]; exact nofun, hsourced⟩).symm
          | none =>
            dsimp only
            by_cases hrequired : inp.name ∈ requiredNames
            · rw [if_pos ⟨decide_eq_true hrequired, rfl⟩]
              exact Or.inl ⟨rfl, Or.inr (Or.inl (hmisses.mpr ⟨hrequired, houtputs, hvalue⟩))⟩
            · rw [if_neg fun h ↦ hrequired (of_decide_eq_true h.1)]
              refine Or.inr ⟨rfl, ?_, fun name hname ↦ (or_iff_left ?_).symm⟩
              · rintro (h | h | h)
                · exact hfails h
                · exact hrequired h.1
                · exact hrequired h.required
              · rintro ⟨rfl, -⟩
                exact hrequired hname
        · rw [if_neg houtputs]
          refine wireWithout_expected hpath hfails (fun h ↦ houtputs (hmisses.mp h).2.1) ?_ hfallback
          have hempty : dep.outputs.items = [] := by
            simpa [ProjectModule.hasOutputs] using houtputs
          rw [hdependency, outputAt]
          cases inp.fromOutput with
          | none => rfl
          | some name =>
            rw [Option.bind_some, Dict.get?, hempty]
            rfl

/-! ### All inputs -/

theorem lacks_cons_iff {inp' : ModuleInput} {before : List ModuleInput}
    (hadds : Adds rows m requiredNames vars inp' vars') :
    Lacks rows m requiredNames vars inp (inp' :: before) ↔ Lacks rows m requiredNames vars' inp before := by
  constructor
  · rintro ⟨hwired, hrequired, hunsourced, habsent, hnot⟩
    refine ⟨hwired, hrequired, hunsourced, fun hin ↦ ?_, fun b hb ↦ hnot b (mem_cons_of_mem inp' hb)⟩
    rcases (hadds inp.name hrequired).mp hin with hin | ⟨hname, hwired', hsourced⟩
    · exact habsent hin
    · exact hnot inp' mem_cons_self hname.symm hwired' hsourced
  · rintro ⟨hwired, hrequired, hunsourced, habsent, hnot⟩
    refine ⟨hwired, hrequired, hunsourced, fun hin ↦ habsent ((hadds inp.name hrequired).mpr (Or.inl hin)),
      forall_mem_cons.mpr ⟨fun hname hwired' hsourced ↦ ?_, hnot⟩⟩
    exact habsent ((hadds inp.name hrequired).mpr (Or.inr ⟨hname.symm, hwired', hsourced⟩))

theorem lacking_cons_iff (hadds : Adds rows m requiredNames vars inp vars') :
    Lacking rows m requiredNames vars (inp :: inps) ↔
      Lacks rows m requiredNames vars inp [] ∨ Lacking rows m requiredNames vars' inps := by
  constructor
  · rintro ⟨before, x, after, heq, hlacks⟩
    cases before with
    | nil =>
      obtain ⟨rfl, -⟩ := List.cons.inj heq
      exact Or.inl hlacks
    | cons b before =>
      obtain ⟨rfl, rfl⟩ := List.cons.inj heq
      exact Or.inr ⟨before, x, after, rfl, (lacks_cons_iff hadds).mp hlacks⟩
  · rintro (hlacks | ⟨before, x, after, rfl, hlacks⟩)
    · exact ⟨[], inp, inps, rfl, hlacks⟩
    · exact ⟨inp :: before, x, after, rfl, (lacks_cons_iff hadds).mpr hlacks⟩

theorem wireInputs_raises_iff : (wireInputs rows m requiredNames false vars inps).2.isSome = true ↔
    (∃ inp ∈ inps, Fails rows m inp ∨ Misses rows m requiredNames inp) ∨
      Lacking rows m requiredNames vars inps := by
  induction inps generalizing vars with
  | nil =>
    refine iff_of_false nofun ?_
    rintro (⟨inp, hmem, -⟩ | ⟨before, inp, after, heq, -⟩)
    · cases hmem
    · exact cons_ne_nil _ _ (append_eq_nil_iff.mp heq.symm).2
  | cons inp inps ih =>
    have hexpected := @wireInput_expected rows m requiredNames vars inp
    unfold wireInputs
    rcases hwire : wireInput rows m requiredNames false vars inp with ⟨vars', raised⟩
    rw [hwire] at hexpected
    rcases hexpected with ⟨hraised, hstops⟩ | ⟨rfl, hstops, hadds⟩
    · obtain ⟨e, rfl⟩ := Option.isSome_iff_exists.mp hraised
      refine iff_of_true rfl ?_
      rcases hstops with hfails | hmisses | hlacks
      · exact Or.inl ⟨inp, mem_cons_self, Or.inl hfails⟩
      · exact Or.inl ⟨inp, mem_cons_self, Or.inr hmisses⟩
      · exact Or.inr ⟨[], inp, inps, rfl, hlacks⟩
    · obtain ⟨hfails, hmisses, hlacks⟩ := (not_or.mp hstops).imp id not_or.mp
      dsimp only
      rw [ih, lacking_cons_iff hadds, or_iff_right hlacks, exists_mem_cons_iff,
        or_iff_right (not_or.mpr ⟨hfails, hmisses⟩)]

theorem wireWithout_destroy {isRequired : Bool} {fallbackValue : Option Value} :
    (wireWithout isRequired true vars inp path fallbackValue).2 = none := by
  unfold wireWithout
  cases fallbackValue with
  | some value => rfl
  | none =>
    dsimp only
    split
    · rfl
    · rw [if_neg fun h ↦ Bool.noConfusion h.2.1]

theorem wireInput_destroy_raises_iff :
    (wireInput rows m requiredNames true vars inp).2.isSome = true ↔ Fails rows m inp := by
  unfold wireInput
  cases hpath : fromPath inp with
  | none =>
    refine iff_of_false nofun ?_
    rintro ⟨path, e, hpath', -⟩
    cases hpath.symm.trans hpath'
  | some path =>
    dsimp only
    cases hdep : dependencyOf rows m path with
    | error e => exact iff_of_true rfl ⟨path, e, hpath, hdep⟩
    | ok found =>
      refine iff_of_false (fun h ↦ ?_) (not_fails hpath hdep)
      cases found with
      | none =>
        dsimp only at h
        rw [wireWithout_destroy] at h
        cases h
      | some dep =>
        dsimp only at h
        split at h
        · cases hvalue : outputAt dep inp.fromOutput with
          | some value =>
            rw [hvalue] at h
            cases h
          | none =>
            rw [hvalue] at h
            dsimp only at h
            rw [if_neg fun h ↦ Bool.noConfusion h.2] at h
            cases h
        · rw [wireWithout_destroy] at h
          cases h

theorem wireInputs_destroy_raises_iff :
    (wireInputs rows m requiredNames true vars inps).2.isSome = true ↔ ∃ inp ∈ inps, Fails rows m inp := by
  induction inps generalizing vars with
  | nil => exact iff_of_false nofun fun ⟨_, hmem, _⟩ ↦ not_mem_nil hmem
  | cons inp inps ih =>
    have hinput := @wireInput_destroy_raises_iff rows m requiredNames vars inp
    unfold wireInputs
    rw [exists_mem_cons_iff]
    rcases hwire : wireInput rows m requiredNames true vars inp with ⟨vars', _ | e⟩
    · rw [hwire] at hinput
      rw [or_iff_right (hinput.not.mp nofun)]
      exact ih
    · rw [hwire] at hinput
      exact iff_of_true rfl (Or.inl (hinput.mp rfl))

/-! ### Other variables -/

theorem wireWithout_frame {isRequired : Bool} {fallbackValue : Option Value} {name : String}
    (h : name ≠ inp.name) :
    (wireWithout isRequired destroy vars inp path fallbackValue).1.get? name = vars.get? name := by
  have hset : ∀ value, (vars.set inp.name value).get? name = vars.get? name := fun value ↦ by
    rw [Dict.get?_set, if_neg h]
  unfold wireWithout
  cases fallbackValue with
  | some value =>
    dsimp only
    split
    · rfl
    · exact hset value
  | none =>
    dsimp only
    split
    · exact hset _
    · split <;> rfl

theorem wireInput_frame {name : String} (h : fromPath inp ≠ none → name ≠ inp.name) :
    (wireInput rows m requiredNames destroy vars inp).1.get? name = vars.get? name := by
  unfold wireInput
  cases hpath : fromPath inp with
  | none => rfl
  | some path =>
    have hne : name ≠ inp.name := h (by rw [hpath]; exact nofun)
    dsimp only
    cases dependencyOf rows m path with
    | error e => rfl
    | ok found =>
      cases found with
      | none => exact wireWithout_frame hne
      | some dep =>
        dsimp only
        split
        · cases outputAt dep inp.fromOutput with
          | some value =>
            dsimp only
            rw [Dict.get?_set, if_neg hne]
          | none =>
            dsimp only
            split <;> rfl
        · exact wireWithout_frame hne

theorem wireInputs_frame {name : String}
    (h : ∀ inp ∈ inps, fromPath inp ≠ none → name ≠ inp.name) :
    (wireInputs rows m requiredNames destroy vars inps).1.get? name = vars.get? name := by
  induction inps generalizing vars with
  | nil => rfl
  | cons inp inps ih =>
    obtain ⟨hinp, hinps⟩ := forall_mem_cons.mp h
    have hframe := @wireInput_frame rows m requiredNames vars inp destroy name hinp
    unfold wireInputs
    rcases hwire : wireInput rows m requiredNames destroy vars inp with ⟨vars', _ | e⟩
    · rw [hwire] at hframe
      exact (ih hinps).trans hframe
    · rw [hwire] at hframe
      exact hframe

end

def inputsOf (library : Option ModuleLibrary) : InputsMetadata :=
  (library.map ModuleLibrary.inputs).getD ⟨[], []⟩

section

variable (rows : List ProjectModule) (m : ProjectModule) (library : Option ModuleLibrary) (vars : Vars)
  (operation : String)

def SourceMissing : Prop :=
  Lacking rows m ((inputsOf library).required.map ModuleInput.name) vars (inputsOf library).all

/-- The wiring raises exactly for a required input without a source, and never when a module is destroyed;
it changes no variable that is not an input from a module. -/
structure RaisesForSources : Prop where
  raises_iff : operation ≠ "destroy" →
    ((applyDependencyOutputWiring rows m library vars operation).2.isSome = true ↔
      SourceMissing rows m library vars)
  not_on_destroy : operation = "destroy" → (applyDependencyOutputWiring rows m library vars operation).2 = none
  frame : ∀ name, (∀ inp ∈ (inputsOf library).all, inp.source = some "module" → inp.name ≠ name) →
    (applyDependencyOutputWiring rows m library vars operation).1.get? name = vars.get? name

/-- No lookup fails and no required input is missed by a module that has outputs, unless some required
input lacks every source anyway. When a module is destroyed no lookup fails at all. -/
structure SourcesFound : Prop where
  found : operation ≠ "destroy" →
    (∃ inp ∈ (inputsOf library).all, Fails rows m inp ∨
      Misses rows m ((inputsOf library).required.map ModuleInput.name) inp) →
    SourceMissing rows m library vars
  on_destroy : operation = "destroy" → ∀ inp ∈ (inputsOf library).all, ¬ Fails rows m inp

end

theorem applyDependencyOutputWiring_eq (rows : List ProjectModule) (m : ProjectModule)
    (library : Option ModuleLibrary) (vars : Vars) (operation : String) :
    applyDependencyOutputWiring rows m library vars operation =
      wireInputs rows m ((inputsOf library).required.map ModuleInput.name) (operation == "destroy") vars
        (inputsOf library).all := by
  cases library with
  | none => rfl
  | some library => rfl

theorem wiring_raises_for_sources_iff (rows : List ProjectModule) (m : ProjectModule)
    (library : Option ModuleLibrary) (vars : Vars) (operation : String) :
    RaisesForSources rows m library vars operation ↔ SourcesFound rows m library vars operation := by
  have heq := applyDependencyOutputWiring_eq rows m library vars operation
  have hframe : ∀ name,
      (∀ inp ∈ (inputsOf library).all, inp.source = some "module" → inp.name ≠ name) →
      (applyDependencyOutputWiring rows m library vars operation).1.get? name = vars.get? name := by
    intro name h
    rw [heq]
    refine wireInputs_frame fun inp hinp hwired ↦ ?_
    by_cases hsource : inp.source = some "module"
    · exact (h inp hinp hsource).symm
    · exact absurd (if_neg hsource) hwired
  by_cases hop : operation = "destroy"
  · subst hop
    rw [beq_self_eq_true] at heq
    have hraises := @wireInputs_destroy_raises_iff rows m
      ((inputsOf library).required.map ModuleInput.name) vars (inputsOf library).all
    constructor
    · rintro ⟨-, hnever, -⟩
      refine ⟨fun hne ↦ absurd rfl hne, fun _ inp hinp hfails ↦ ?_⟩
      have hraised := hraises.mpr ⟨inp, hinp, hfails⟩
      rw [heq] at hnever
      rw [hnever rfl] at hraised
      cases hraised
    · rintro ⟨-, hnone⟩
      refine ⟨fun hne ↦ absurd rfl hne, fun _ ↦ ?_, hframe⟩
      rw [heq, ← Option.not_isSome_iff_eq_none]
      exact fun h ↦ let ⟨inp, hinp, hfails⟩ := hraises.mp h; hnone rfl inp hinp hfails
  · have hdestroy : (operation == "destroy") = false := beq_false_of_ne hop
    have hraises := @wireInputs_raises_iff rows m ((inputsOf library).required.map ModuleInput.name) vars
      (inputsOf library).all
    rw [hdestroy] at heq
    constructor
    · rintro ⟨hiff, -, -⟩
      refine ⟨fun _ h ↦ (hiff hop).mp ?_, fun h ↦ absurd h hop⟩
      rw [heq]
      exact hraises.mpr (Or.inl h)
    · rintro ⟨hfound, -⟩
      refine ⟨fun _ ↦ ?_, fun h ↦ absurd h hop, hframe⟩
      rw [heq, hraises]
      exact or_iff_right_of_imp (hfound hop)

def vpcModule : ProjectModule :=
  ⟨1, 1, none, true, [], Dict.empty.set "vpc_id" (.str "vpc-1"), ⟨some "infra/aws/vpc", [], []⟩⟩

def subnetIds : ModuleInput :=
  ⟨"subnet_ids", some "module", some "infra/aws/vpc", some "subnet_ids", .list [], none⟩

/-- The wiring raises although the input has a default. -/
theorem default_not_used :
    ¬ ∀ (rows : List ProjectModule) (m : ProjectModule) (library : Option ModuleLibrary) (vars : Vars)
      (operation : String), (rows.map ProjectModule.id).Nodup → (∀ d ∈ rows, d.library.path ≠ none) →
      RaisesForSources rows m library vars operation := by
  intro h
  have hraises := (h [vpcModule] ⟨2, 1, none, false, [], Dict.empty, ⟨some "k8s/network-setup", [], []⟩⟩
    (some ⟨some "k8s/network-setup", [subnetIds], []⟩) Dict.empty "apply" (by decide)
    (by decide)).raises_iff (by decide)
  obtain ⟨before, inp, after, heq, hlacks⟩ := hraises.mp rfl
  have hmem : inp ∈ [subnetIds] := by
    have hin : inp ∈ before ++ inp :: after := List.mem_append_right before List.mem_cons_self
    rwa [← heq] at hin
  cases List.mem_singleton.mp hmem
  exact hlacks.unsourced (Or.inr (Or.inr rfl))

end BnkForge.Variables
