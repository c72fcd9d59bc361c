import BnkForge.Variables.AutoWire

/-!
# What auto-wiring leaves alone

The output that is taken for a variable is that of a module of the same stack before one of another, among
these that of a declared dependency before another, and then that of the smallest id. It is taken for
variables that are not there, and for those that are there with a value that Python takes as false.
-/

namespace BnkForge.Variables

open Python List

section

variable (rows : List ProjectModule) (m : ProjectModule) (project : Option Project) (vars : Vars)

def Preferred (a b : ProjectModule) : Prop :=
  (isSameStack m a = true ∧ isSameStack m b = false) ∨
    isSameStack m a = isSameStack m b ∧ ((isDep m a = true ∧ isDep m b = false) ∨
      isDep m a = isDep m b ∧ a.id < b.id)

/-- The module whose output is to be taken for a variable. -/
structure IsBest (key : String) (pm : ProjectModule) : Prop where
  source : pm ∈ sources rows m
  provides : key ∈ pm.outputs
  preferred : ∀ pm' ∈ sources rows m, key ∈ pm'.outputs → pm' ≠ pm → Preferred m pm pm'

/-- Auto-wiring leaves the variables that are there, and takes the best output for one that is not. -/
structure LeavesSet : Prop where
  present : ∀ key value, vars.get? key = some value →
    (autoWireCommonVariables rows m project vars).get? key = some value
  absent : ∀ key, key ∉ vars → key ∉ autoWireSkip → ∀ pm, IsBest rows m key pm →
    (autoWireCommonVariables rows m project vars).get? key = pm.outputs.get? key

def Wired (key : String) (value : Value) : Prop :=
  key ∉ autoWireSkip ∧ ∃ pm, IsBest rows m key pm ∧ pm.outputs.get? key = some value

/-- A variable that the project gives. -/
def Given (key : String) (value : Value) : Prop :=
  ∃ p, project = some p ∧ (key, value) ∈ projectVariables p

/-- What an unset variable would get: the output if it is true or the project has nothing, and else what
the project has. -/
def Takes (key : String) (value : Value) : Prop :=
  (Wired rows m key value ∧ (value.truthy = true ∨ ∀ u, ¬ Given project key u)) ∨
    Given project key value ∧ ∀ w, Wired rows m key w → w.truthy = false

/-- Nothing else is there for a variable with a false value, and the project has no other value for a
variable that gets a false output. -/
structure NothingElse : Prop where
  present : ∀ key value, vars.get? key = some value → value.truthy = false →
    ∀ other, Takes rows m project key other → other = value
  absent : ∀ key, key ∉ vars → ∀ value, Wired rows m key value → value.truthy = false →
    ∀ other, Given project key other → other = value

end

section

variable {rows : List ProjectModule} {m pm pm' : ProjectModule} {project : Option Project} {vars : Vars}
  {key : String} {value w : Value} {c : Candidate} {candidates : List Candidate}
  {items : List (String × Value)}

/-! ### The best candidate -/

theorem preferred_iff : Preferred m pm pm' ↔
    candidatePriority (candidate m pm value) < candidatePriority (candidate m pm' w) := by
  unfold Preferred candidatePriority candidate
  cases isSameStack m pm <;> cases isSameStack m pm' <;> cases isDep m pm <;> cases isDep m pm' <;>
    simp [Prod.Lex.toLex_lt_toLex]

theorem preferred_total (h : pm.id ≠ pm'.id) : Preferred m pm pm' ∨ Preferred m pm' pm := by
  unfold Preferred
  have hid : pm.id < pm'.id ∨ pm'.id < pm.id := lt_or_gt_of_ne h
  cases isSameStack m pm <;> cases isSameStack m pm' <;> cases isDep m pm <;> cases isDep m pm' <;>
    simp [hid]

theorem selected_spec (h : selected candidates = some c) :
    c ∈ candidates ∧ ∀ c' ∈ candidates, candidatePriority c ≤ candidatePriority c' := by
  have : IsTrans Candidate fun a b ↦ candidatePriority a ≤ candidatePriority b := ⟨fun _ _ _ ↦ le_trans⟩
  have : Std.Total fun a b : Candidate ↦ candidatePriority a ≤ candidatePriority b :=
    ⟨fun _ _ ↦ le_total _ _⟩
  unfold selected at h
  have hsorted := pairwise_insertionSort (fun a b ↦ candidatePriority a ≤ candidatePriority b) candidates
  have hperm := perm_insertionSort (fun a b ↦ candidatePriority a ≤ candidatePriority b) candidates
  cases hlist : candidates.insertionSort fun a b ↦ candidatePriority a ≤ candidatePriority b with
  | nil =>
    rw [hlist] at h
    cases h
  | cons c₀ rest =>
    rw [hlist] at h hsorted hperm
    cases h
    refine ⟨hperm.mem_iff.mp mem_cons_self, fun c' hc' ↦ ?_⟩
    rcases mem_cons.mp (hperm.mem_iff.mpr hc') with rfl | hrest
    · exact le_rfl
    · exact (pairwise_cons.mp hsorted).1 c' hrest

theorem exists_selected (h : candidates ≠ []) : ∃ c, selected candidates = some c := by
  unfold selected
  cases hlist : candidates.insertionSort fun a b ↦ candidatePriority a ≤ candidatePriority b with
  | nil =>
    have hperm := perm_insertionSort (fun a b ↦ candidatePriority a ≤ candidatePriority b) candidates
    rw [hlist] at hperm
    exact absurd hperm.symm.eq_nil h
  | cons c rest => exact ⟨c, rfl⟩

/-! ### The candidates of a variable -/

theorem mem_entries {c : Candidate} :
    (key, c) ∈ ((sources rows m).flatMap fun pm ↦ pm.outputs.items.map fun o ↦ (o.1, candidate m pm o.2)) ↔
      ∃ pm ∈ sources rows m, ∃ v, pm.outputs.get? key = some v ∧ candidate m pm v = c := by
  rw [mem_flatMap]
  refine exists_congr fun pm ↦ and_congr_right fun _ ↦ ?_
  rw [mem_map]
  constructor
  · rintro ⟨⟨name, v⟩, hmem, heq⟩
    cases heq
    exact ⟨v, Dict.get?_eq_some_iff.mpr hmem, rfl⟩
  · rintro ⟨v, hget, rfl⟩
    exact ⟨(key, v), Dict.get?_eq_some_iff.mp hget, rfl⟩

theorem outputCandidates_eq_some (h : (outputCandidates rows m).get? key = some candidates) :
    candidates ≠ [] ∧ ∀ c, c ∈ candidates ↔
      ∃ pm ∈ sources rows m, ∃ v, pm.outputs.get? key = some v ∧ candidate m pm v = c := by
  unfold outputCandidates at h
  rw [Dict.get?_group] at h
  split at h
  · cases h
  case isFalse hne =>
    cases h
    constructor
    · intro hnil
      exact hne (List.isEmpty_iff.mpr (map_eq_nil_iff.mp hnil))
    · intro c
      rw [← mem_entries, mem_map]
      constructor
      · rintro ⟨e, he, rfl⟩
        obtain ⟨hmem, hkey⟩ := mem_filter.mp he
        rwa [← of_decide_eq_true hkey]
      · exact fun hmem ↦ ⟨(key, c), mem_filter.mpr ⟨hmem, decide_eq_true rfl⟩, rfl⟩

theorem exists_outputCandidates (hsource : pm ∈ sources rows m) (hget : pm.outputs.get? key = some value) :
    ∃ candidates, (outputCandidates rows m).get? key = some candidates := by
  unfold outputCandidates
  rw [Dict.get?_group]
  refine ⟨_, if_neg fun hempty ↦ ?_⟩
  have hmem := mem_entries.mpr ⟨pm, hsource, value, hget, rfl⟩
  exact filter_eq_nil_iff.mp (List.isEmpty_iff.mp hempty) _ hmem (decide_eq_true rfl)

/-! ### The available outputs -/

theorem mem_availableOutputs : (key, value) ∈ availableOutputs rows m ↔
    ∃ candidates, (outputCandidates rows m).get? key = some candidates ∧
      ∃ c, selected candidates = some c ∧ c.value = value := by
  unfold availableOutputs
  rw [mem_filterMap]
  constructor
  · rintro ⟨⟨name, candidates⟩, hmem, hsome⟩
    obtain ⟨c, hc, heq⟩ := Option.map_eq_some_iff.mp hsome
    cases heq
    exact ⟨candidates, Dict.get?_eq_some_iff.mpr hmem, c, hc, rfl⟩
  · rintro ⟨candidates, hget, c, hc, rfl⟩
    refine ⟨(key, candidates), Dict.get?_eq_some_iff.mp hget, ?_⟩
    rw [hc]
    rfl

theorem mem_availableOutputs_iff (hids : (rows.map ProjectModule.id).Nodup) :
    (key, value) ∈ availableOutputs rows m ↔
      ∃ pm, IsBest rows m key pm ∧ pm.outputs.get? key = some value := by
  have hsources : ∀ {a b : ProjectModule}, a ∈ sources rows m → b ∈ sources rows m → a.id = b.id → a = b :=
    fun ha hb heq ↦ inj_on_of_nodup_map hids (mem_of_mem_filter ha) (mem_of_mem_filter hb) heq
  rw [mem_availableOutputs]
  constructor
  · rintro ⟨candidates, hget, c, hselected, rfl⟩
    obtain ⟨-, hmem⟩ := outputCandidates_eq_some hget
    obtain ⟨hc, hleast⟩ := selected_spec hselected
    obtain ⟨pm, hsource, v, hvalue, rfl⟩ := (hmem c).mp hc
    refine ⟨pm, ⟨hsource, Dict.mem_iff.mpr ⟨v, hvalue⟩, fun pm' hsource' hprovides hne ↦ ?_⟩, hvalue⟩
    obtain ⟨v', hvalue'⟩ := Dict.mem_iff.mp hprovides
    have hle := hleast _ ((hmem _).mpr ⟨pm', hsource', v', hvalue', rfl⟩)
    refine (preferred_total fun heq ↦ hne (hsources hsource' hsource heq.symm)).resolve_right fun hbefore ↦ ?_
    exact absurd (preferred_iff.mp hbefore) (not_lt.mpr hle)
  · rintro ⟨pm, ⟨hsource, -, hpreferred⟩, hvalue⟩
    obtain ⟨candidates, hget⟩ := exists_outputCandidates hsource hvalue
    obtain ⟨hne, hmem⟩ := outputCandidates_eq_some hget
    obtain ⟨c, hselected⟩ := exists_selected hne
    obtain ⟨hc, hleast⟩ := selected_spec hselected
    obtain ⟨pm', hsource', v', hvalue', rfl⟩ := (hmem c).mp hc
    have hle := hleast _ ((hmem _).mpr ⟨pm, hsource, value, hvalue, rfl⟩)
    have heq : pm' = pm := by
      by_contra hother
      have hbefore := hpreferred pm' hsource' (Dict.mem_iff.mpr ⟨v', hvalue'⟩) hother
      exact absurd (preferred_iff.mp hbefore) (not_lt.mpr hle)
    subst heq
    exact ⟨candidates, hget, _, hselected, Option.some.inj (hvalue'.symm.trans hvalue)⟩

theorem nodup_availableOutputs : ((availableOutputs rows m).map Prod.fst).Nodup := by
  have hsub : ∀ items : List (String × List Candidate),
      ((items.filterMap fun o ↦ (selected o.2).map fun c ↦ (o.1, c.value)).map Prod.fst).Sublist
        (items.map Prod.fst) := by
    intro items
    induction items with
    | nil => exact .slnil
    | cons o items ih =>
      rw [filterMap_cons]
      cases selected o.2 with
      | none => exact ih.cons _
      | some c => exact ih.cons_cons _
  exact (hsub _).nodup (outputCandidates rows m).nodup

/-! ### The assignments -/

theorem get?_foldl_fillIn (hnodup : (items.map Prod.fst).Nodup) :
    (items.foldl fillIn vars).get? key =
      if ((vars.get? key).getD .none).truthy then vars.get? key
      else (items.lookup key).or (vars.get? key) := by
  induction items generalizing vars with
  | nil => exact (ite_self _).symm
  | cons item items ih =>
    obtain ⟨hnot, hnodup⟩ := nodup_cons.mp hnodup
    rw [foldl_cons, ih hnodup]
    unfold fillIn
    by_cases hkey : key = item.1
    · subst hkey
      rw [Assoc.lookup_eq_none_iff.mpr hnot, Option.none_or, ite_self, lookup_cons_self, Option.some_or]
      split
      · rfl
      · rw [Dict.get?_set, if_pos rfl]
    · rw [lookup_cons, beq_false_of_ne hkey]
      split
      · rfl
      · rw [Dict.get?_set, if_neg hkey]

theorem nodup_projectVariables (p : Project) : ((projectVariables p).map Prod.fst).Nodup := by
  unfold projectVariables
  split <;> simp

def wiredItems (rows : List ProjectModule) (m : ProjectModule) : List (String × Value) :=
  (availableOutputs rows m).filter (·.1 ∉ autoWireSkip)

def projectItems (project : Option Project) : List (String × Value) := project.elim [] projectVariables

theorem lookup_wiredItems (hids : (rows.map ProjectModule.id).Nodup) :
    (wiredItems rows m).lookup key = some value ↔ Wired rows m key value := by
  have hnodup : ((wiredItems rows m).map Prod.fst).Nodup :=
    (filter_sublist.map Prod.fst).nodup nodup_availableOutputs
  rw [Assoc.lookup_eq_some_iff_mem hnodup, wiredItems, mem_filter, decide_eq_true_eq,
    mem_availableOutputs_iff hids, and_comm]
  rfl

theorem lookup_projectItems : (projectItems project).lookup key = some value ↔ Given project key value := by
  cases project with
  | none => exact iff_of_false nofun fun ⟨_, h, _⟩ ↦ nomatch h
  | some p =>
    rw [projectItems, Option.elim_some, Assoc.lookup_eq_some_iff_mem (nodup_projectVariables p)]
    refine ⟨fun h ↦ ⟨p, rfl, h⟩, ?_⟩
    rintro ⟨p', heq, h⟩
    cases heq
    exact h

/-- What an unset variable gets. -/
def taken (rows : List ProjectModule) (m : ProjectModule) (project : Option Project) (key : String) :
    Option Value :=
  (((wiredItems rows m).lookup key).filter Value.truthy).or
    (((projectItems project).lookup key).or ((wiredItems rows m).lookup key))

theorem taken_eq_some_iff (hids : (rows.map ProjectModule.id).Nodup) :
    taken rows m project key = some value ↔ Takes rows m project key value := by
  unfold taken Takes
  simp only [← lookup_wiredItems hids, ← lookup_projectItems]
  cases hw : (wiredItems rows m).lookup key with
  | none => simp
  | some w =>
    cases htruthy : w.truthy with
    | true =>
      rw [Option.filter_some_pos htruthy, Option.some_or]
      constructor
      · rintro ⟨⟩
        exact Or.inl ⟨rfl, Or.inl htruthy⟩
      · rintro (⟨h, -⟩ | ⟨-, h⟩)
        · exact h
        · cases htruthy.symm.trans (h w rfl)
    | false =>
      rw [Option.filter_some_neg htruthy, Option.none_or]
      cases hu : (projectItems project).lookup key with
      | none =>
        rw [Option.none_or]
        constructor
        · rintro ⟨⟩
          exact Or.inl ⟨rfl, Or.inr nofun⟩
        · rintro (⟨h, -⟩ | ⟨h, -⟩)
          · exact h
          · cases h
      | some u =>
        rw [Option.some_or]
        constructor
        · rintro ⟨⟩
          refine Or.inr ⟨rfl, ?_⟩
          rintro _ ⟨⟩
          exact htruthy
        · rintro (⟨heq, htrue | hnone⟩ | ⟨h, -⟩)
          · cases heq
            cases htruthy.symm.trans htrue
          · exact absurd rfl (hnone u)
          · exact h

theorem get?_autoWireCommonVariables :
    (autoWireCommonVariables rows m project vars).get? key =
      if ((vars.get? key).getD .none).truthy then vars.get? key
      else (taken rows m project key).or (vars.get? key) := by
  have hnodup : ((wiredItems rows m).map Prod.fst).Nodup :=
    (filter_sublist.map Prod.fst).nodup nodup_availableOutputs
  have hproject : ((projectItems project).map Prod.fst).Nodup := by
    cases project with
    | none => exact nodup_nil
    | some p => exact nodup_projectVariables p
  have heq : autoWireCommonVariables rows m project vars =
      (projectItems project).foldl fillIn ((wiredItems rows m).foldl fillIn vars) := by
    cases project <;> rfl
  rw [heq, get?_foldl_fillIn hproject, get?_foldl_fillIn hnodup]
  by_cases hset : ((vars.get? key).getD .none).truthy = true
  · simp only [hset, if_true]
  · rw [if_neg hset, if_neg hset, taken]
    cases (wiredItems rows m).lookup key with
    | none => rw [Option.none_or, if_neg hset, Option.or_none, Option.filter_none, Option.none_or]
    | some w =>
      rw [Option.some_or, Option.getD_some]
      cases htruthy : w.truthy with
      | true => rw [if_pos rfl, Option.filter_some_pos htruthy, Option.some_or, Option.some_or]
      | false =>
        rw [if_neg Bool.false_ne_true, Option.filter_some_neg htruthy,
          Option.none_or, Option.or_assoc, Option.some_or]

end

/-- Auto-wiring leaves what is set, and takes the best outputs, exactly when nothing else is there for
variables with false values. -/
theorem leavesSet_iff (rows : List ProjectModule) (m : ProjectModule) (project : Option Project)
    (vars : Vars) (hids : (rows.map ProjectModule.id).Nodup) :
    LeavesSet rows m project vars ↔ NothingElse rows m project vars := by
  have hunset : ∀ {key : String}, key ∉ vars → ¬ ((vars.get? key).getD .none).truthy = true := by
    intro key hkey
    rw [Dict.get?_eq_none_iff.mpr hkey]
    exact Bool.false_ne_true
  constructor
  · rintro ⟨hpresent, habsent⟩
    constructor
    · intro key value hget hfalse other htakes
      have hkept := hpresent key value hget
      rw [get?_autoWireCommonVariables, hget, Option.getD_some, hfalse, if_neg Bool.false_ne_true,
        (taken_eq_some_iff hids).mpr htakes, Option.some_or] at hkept
      exact Option.some.inj hkept
    · intro key hkey value hwired hfalse other hgiven
      obtain ⟨hskip, pm, hbest, hvalue⟩ := hwired
      have htaken := habsent key hkey hskip pm hbest
      have htakes : Takes rows m project key other := by
        refine Or.inr ⟨hgiven, fun w hw ↦ ?_⟩
        have heq := ((lookup_wiredItems hids).mpr hw).symm.trans
          ((lookup_wiredItems hids).mpr ⟨hskip, pm, hbest, hvalue⟩)
        rw [Option.some.inj heq, hfalse]
      rw [get?_autoWireCommonVariables, if_neg (hunset hkey), (taken_eq_some_iff hids).mpr htakes,
        Option.some_or, hvalue] at htaken
      exact Option.some.inj htaken
  · rintro ⟨hpresent, habsent⟩
    constructor
    · intro key value hget
      rw [get?_autoWireCommonVariables, hget, Option.getD_some]
      split
      · rfl
      case isFalse hfalse =>
        cases htaken : taken rows m project key with
        | none => rfl
        | some other =>
          rw [Option.some_or, hpresent key value hget (Bool.eq_false_of_not_eq_true hfalse) other
            ((taken_eq_some_iff hids).mp htaken)]
    · intro key hkey hskip pm hbest
      obtain ⟨value, hvalue⟩ := Dict.mem_iff.mp hbest.provides
      have hwired : Wired rows m key value := ⟨hskip, pm, hbest, hvalue⟩
      have hlookup := (lookup_wiredItems hids).mpr hwired
      rw [get?_autoWireCommonVariables, if_neg (hunset hkey), Dict.get?_eq_none_iff.mpr hkey, Option.or_none,
        hvalue, taken, hlookup]
      cases htruthy : value.truthy with
      | true => rw [Option.filter_some_pos htruthy, Option.some_or]
      | false =>
        rw [Option.filter_some_neg htruthy, Option.none_or]
        cases hproject : (projectItems project).lookup key with
        | none => rfl
        | some other =>
          rw [Option.some_or, habsent key hkey value hwired htruthy other (lookup_projectItems.mp hproject)]

def producer : ProjectModule :=
  ⟨1, 1, none, true, [], ⟨[("replicas", .int 3)], by decide⟩, ⟨some "k8s/app", [], []⟩⟩

def consumer : ProjectModule := ⟨2, 1, none, false, [], Dict.empty, ⟨some "k8s/site", [], []⟩⟩

/-- A variable with a true value stays. -/
theorem leavesSet_iff_true_value :
    LeavesSet [producer] consumer none ⟨[("replicas", .int 5)], by decide⟩ := by
  refine (leavesSet_iff [producer] consumer none ⟨[("replicas", .int 5)], by decide⟩ (by decide)).mpr
    ⟨fun key value hget hfalse ↦ ?_, fun key hkey value hwired hfalse other hgiven ↦ ?_⟩
  · have hmem := Dict.get?_eq_some_iff.mp hget
    cases List.mem_singleton.mp hmem
    cases hfalse
  · obtain ⟨p, hnone, -⟩ := hgiven
    cases hnone

/-- A variable that is set to zero gets the output of a module. -/
theorem zero_replaced :
    ¬ ∀ (rows : List ProjectModule) (m : ProjectModule) (project : Option Project) (vars : Vars),
      (rows.map ProjectModule.id).Nodup → LeavesSet rows m project vars := by
  intro h
  have hkept := (h [producer] consumer none ⟨[("replicas", .int 0)], by decide⟩ (by decide)).present
    "replicas" (.int 0) rfl
  have hreplaced : (autoWireCommonVariables [producer] consumer none
      ⟨[("replicas", .int 0)], by decide⟩).get? "replicas" = some (.int 3) := rfl
  cases hreplaced.symm.trans hkept

end BnkForge.Variables
