import BnkForge.Blueprint.Updates
import BnkForge.Lib.ExceptResult

/-!
# The dependency edges of a blueprint

The dependencies of the modules of a release are those of its manifest once it is created, and they
are kept by the updates, unless the entries of the catalog say otherwise.
-/

namespace BnkForge.Blueprint

open BnkForge.Dependencies BnkForge.Graph Transition List

/-! ### Creation -/

section

variable {limit : Nat} {catalog : List LibraryModule} {refused : ModuleDef → Option String}
  {release projectId : Nat} {s t : ReleaseTable} {created created' : List (String × Nat)}
  {defs : List ModuleDef} {order : Int}

theorem edges_insert {m : ProjectRow} {hid : m.id = s.table.nextId}
    {hproject : m.projectId ∈ s.table.projects} (htable : t.table = s.table.insert m hid hproject)
    (id : Nat) :
    t.edges id = if id = s.table.nextId then m.dependencies.toFinset else s.edges id := by
  have hget : t.table.get? id =
      (s.table.get? id).or (if m.id == id then some m else none) := by
    rw [htable]
    exact find?_append.trans (congrArg _ find?_singleton)
  unfold ReleaseTable.edges
  rw [hget]
  rcases eq_or_ne id s.table.nextId with rfl | hne
  · have hnone : s.table.get? s.table.nextId = none := find?_eq_none.mpr fun r hr hrid ↦
      absurd (beq_iff_eq.mp hrid) (Nat.ne_of_lt (s.table.ids_lt r hr))
    rw [hnone, if_pos (beq_iff_eq.mpr hid), if_pos rfl]
    rfl
  · rw [if_neg fun h ↦ hne ((beq_iff_eq.mp h).symm.trans hid), Option.or_none, if_neg hne]

theorem ofProject_insert {m : ProjectRow} {hid : m.id = s.table.nextId}
    {hproject : m.projectId ∈ s.table.projects} (htable : t.table = s.table.insert m hid hproject) :
    t.table.ofProject m.projectId = s.table.ofProject m.projectId ++ [m] := by
  rw [htable]
  exact (filter_append ..).trans
    (congrArg _ (filter_cons_of_pos (beq_self_eq_true m.projectId)))

theorem addReleaseModule_eq_ok {m : LibraryModule} {d : ModuleDef}
    (h : addReleaseModule catalog refused release projectId s m d order = .ok t) :
    ∃ (entry : LibraryEntry) (row : ProjectRow) (hid : row.id = s.table.nextId)
      (hproject : row.projectId ∈ s.table.projects),
      entryOf catalog m.id = some entry ∧ row.projectId = projectId ∧ row.library = some entry ∧
      row.pathInProject = pathInProject release d ∧
      detectModuleDependencies entry (s.table.ofProject projectId) = .ok row.dependencies ∧
      t.table = s.table.insert row hid hproject := by
  unfold addReleaseModule at h
  split at h
  · cases h
  · next table hadd =>
    cases h
    unfold addModule at hadd
    split at hadd
    · next hproject =>
      split at hadd
      · cases hadd
      · next entry hentry =>
        split at hadd
        · cases hadd
        · split at hadd
          · cases hadd
          · split at hadd
            · cases hadd
            · next deps hdetect =>
              obtain ⟨rfl, -⟩ := Prod.mk.inj hadd
              exact ⟨entry, _, rfl, hproject, hentry, rfl, rfl, rfl, hdetect, rfl⟩
    · cases hadd

/-- The modules that are created from next ids on, with rows by which they are detected. -/
def planned (catalog : List LibraryModule) (release projectId : Nat) :
    Nat → List ModuleDef → List (ModuleDef × ProjectRow)
  | _, [] => []
  | next, d :: ds =>
    match resolveLibraryModule catalog d with
    | none => planned catalog release projectId next ds
    | some m =>
      (d, ⟨next, projectId, entryOf catalog m.id, pathInProject release d, 0, []⟩) ::
        planned catalog release projectId (next + 1) ds

def NothingDetected (ids : List String) : List ProjectRow → List (ModuleDef × ProjectRow) → Prop
  | _, [] => True
  | rows, (d, m) :: plan =>
    ((∀ dep ∈ d.dependsOn, dep ∉ ids) →
      ∀ entry ∈ m.library, detectModuleDependencies entry rows = .ok []) ∧
      NothingDetected ids (rows ++ [m]) plan

theorem planned_id_ge (next : Nat) :
    ∀ p ∈ planned catalog release projectId next defs, next ≤ p.2.id := by
  induction defs generalizing next with
  | nil => exact nofun
  | cons d ds ih =>
    intro p hp
    unfold planned at hp
    split at hp
    · exact ih next p hp
    · rcases mem_cons.mp hp with rfl | hp
      · exact Nat.le_refl _
      · exact (Nat.le_succ next).trans (ih (next + 1) p hp)

theorem planned_nodup (next : Nat) :
    ((planned catalog release projectId next defs).map fun p ↦ p.2.id).Nodup := by
  induction defs generalizing next with
  | nil => exact .nil
  | cons d ds ih =>
    unfold planned
    split
    · exact ih next
    · rw [map_cons, nodup_cons]
      refine ⟨fun hmem ↦ ?_, ih (next + 1)⟩
      obtain ⟨p, hp, hid⟩ := mem_map.mp hmem
      have := planned_id_ge (next + 1) p hp
      dsimp only at hid
      omega

theorem planned_sublist (catalog : List LibraryModule) (release projectId next : Nat)
    (defs : List ModuleDef) :
    ((planned catalog release projectId next defs).map Prod.fst).Sublist defs := by
  induction defs generalizing next with
  | nil => exact .refl _
  | cons d ds ih =>
    unfold planned
    split
    · exact (ih next).cons d
    · exact (ih (next + 1)).cons_cons d

theorem planned_ids_nodup (hids : (defs.map ModuleDef.id).Nodup) (next : Nat) :
    ((planned catalog release projectId next defs).map fun p ↦ p.1.id).Nodup := by
  have hsub := (planned_sublist catalog release projectId next defs).map ModuleDef.id
  rw [map_map] at hsub
  exact hids.sublist hsub

theorem addReleaseModules_eq_ok
    (h : addReleaseModules catalog refused release projectId order s created defs = .ok (t, created')) :
    created' = ((planned catalog release projectId s.table.nextId defs).map fun p ↦
      (p.1.id, p.2.id)).reverse ++ created ∧ (∀ id < s.table.nextId, t.edges id = s.edges id) ∧
      ∀ ids existing, existing.map ProjectRow.bare =
        (s.table.ofProject projectId).map ProjectRow.bare →
        (NothingDetected ids existing (planned catalog release projectId s.table.nextId defs) ↔
          ∀ p ∈ planned catalog release projectId s.table.nextId defs,
            (∀ dep ∈ p.1.dependsOn, dep ∉ ids) → t.edges p.2.id = ∅) := by
  induction defs generalizing order s created with
  | nil =>
    cases h
    exact ⟨rfl, fun _ _ ↦ rfl, fun _ _ _ ↦ iff_of_true trivial nofun⟩
  | cons d ds ih =>
    unfold addReleaseModules at h
    unfold planned
    cases hresolve : resolveLibraryModule catalog d with
    | none =>
      rw [hresolve] at h
      exact ih h
    | some m =>
      rw [hresolve] at h
      dsimp only at h ⊢
      split at h
      · cases h
      · next added hadd =>
        obtain ⟨entry, row, hid, hproject, hentry, rfl, hlibrary, hpath, hdetect, htable⟩ :=
          addReleaseModule_eq_ok hadd
        have hnext : added.table.nextId = s.table.nextId + 1 := by rw [htable]; rfl
        obtain ⟨hcreated, hframe, hiff⟩ := ih h
        rw [hnext] at hcreated hframe hiff
        have hedges := edges_insert htable
        refine ⟨?_, fun k hk ↦ ?_, fun ids existing hbare ↦ ?_⟩
        · rw [hcreated, map_cons, reverse_cons, append_assoc, singleton_append]
        · rw [hframe k (Nat.lt_succ_of_lt hk), hedges, if_neg (Nat.ne_of_lt hk)]
        · have hedge : t.edges s.table.nextId = row.dependencies.toFinset := by
            rw [hframe _ (Nat.lt_succ_self _), hedges, if_pos rfl]
          have hbare' : (existing ++ [(⟨s.table.nextId, row.projectId, entryOf catalog m.id,
              pathInProject release d, 0, []⟩ : ProjectRow)]).map ProjectRow.bare =
                (added.table.ofProject row.projectId).map ProjectRow.bare := by
            rw [ofProject_insert htable, map_append, map_append, hbare, ← hid, hentry,
              ← hlibrary, ← hpath]
            rfl
          have hnone : (∀ found ∈ entryOf catalog m.id,
              detectModuleDependencies found existing = .ok []) ↔
                row.dependencies.toFinset = ∅ := by
            simp only [hentry, Option.mem_some_iff, forall_eq']
            rw [detect_congr hbare, hdetect, toFinset_eq_empty_iff]
            exact ⟨Except.ok.inj, congrArg Except.ok⟩
          rw [NothingDetected, hnone, forall_mem_cons, hedge]
          exact and_congr_right fun _ ↦ hiff ids _ hbare'

theorem edges_putDependencies {id : Nat} {deps : List Nat} (hsome : (s.table.get? id).isSome)
    (htable : t.table = s.table.putDependencies id deps) (k : Nat) :
    t.edges k = if k = id then deps.toFinset else s.edges k := by
  have hget : t.table.get? k = (s.table.get? k).map fun m ↦
      if m.id = id then { m with dependencies := deps } else m := by
    rw [htable]
    exact Assoc.find?_map_of_eq (fun m ↦ by split <;> rfl) _
  unfold ReleaseTable.edges
  rw [hget]
  cases hk : s.table.get? k with
  | none =>
    rw [if_neg]
    · rfl
    · rintro rfl
      rw [hk] at hsome
      cases hsome
  | some m =>
    obtain ⟨-, rfl⟩ := get?_eq_some hk
    simp only [Option.map_some, Option.elim_some]
    split <;> rfl

theorem setDependencies_eq_ok {id : Nat} {deps : List Nat} {table : ModuleTable}
    (h : setDependencies limit id deps s.table = (table, none)) :
    (s.table.get? id).isSome ∧ table = s.table.putDependencies id deps := by
  unfold setDependencies at h
  split at h
  · cases (Prod.mk.inj h).2
  · next hget =>
    split at h
    · cases (Prod.mk.inj h).2
    · cases (Prod.mk.inj h).2
    · exact ⟨hget ▸ rfl, (Prod.mk.inj h).1.symm⟩

theorem setReleaseDependencies_frame (h : setReleaseDependencies limit created s defs = .ok t) {id : Nat}
    (hnot : ∀ d ∈ defs, created.lookup d.id ≠ some id) : t.edges id = s.edges id := by
  induction defs generalizing s with
  | nil =>
    cases h
    rfl
  | cons d ds ih =>
    have hrest := fun e he ↦ hnot e (mem_cons_of_mem d he)
    unfold setReleaseDependencies at h
    split at h
    · exact ih h hrest
    · next moduleId hlookup =>
      split at h
      · exact ih h hrest
      · split at h
        · cases h
        · next table hset =>
          obtain ⟨hsome, htable⟩ := setDependencies_eq_ok hset
          have hne : id ≠ moduleId := fun heq ↦ hnot d mem_cons_self (heq ▸ hlookup)
          rw [ih h hrest, edges_putDependencies hsome htable, if_neg hne]

theorem edges_setReleaseDependencies (h : setReleaseDependencies limit created s defs = .ok t)
    (hids : (defs.map ModuleDef.id).Nodup) (hcreated : (created.map Prod.snd).Nodup) {d : ModuleDef}
    (hd : d ∈ defs) {id : Nat} (hlookup : created.lookup d.id = some id) :
    t.edges id = if dependencyIds created d = [] then s.edges id
      else (dependencyIds created d).toFinset := by
  induction defs generalizing s with
  | nil => cases hd
  | cons e ds ih =>
    rw [map_cons, nodup_cons] at hids
    unfold setReleaseDependencies at h
    rcases mem_cons.mp hd with rfl | hd
    · have hframe : ∀ d' ∈ ds, created.lookup d'.id ≠ some id := fun d' hd' hsame ↦
        hids.1 (Assoc.lookup_inj hcreated hlookup hsame ▸ mem_map_of_mem hd')
      rw [hlookup] at h
      dsimp only at h
      split at h
      · next hempty => rw [setReleaseDependencies_frame h hframe, if_pos hempty]
      · next hne =>
        split at h
        · cases h
        · next hset =>
          obtain ⟨hsome, htable⟩ := setDependencies_eq_ok hset
          rw [setReleaseDependencies_frame h hframe, edges_putDependencies hsome htable, if_pos rfl,
            if_neg hne]
    · split at h
      · exact ih h hids.2 hd
      · next moduleId hother =>
        split at h
        · exact ih h hids.2 hd
        · split at h
          · cases h
          · next hset =>
            obtain ⟨hsome, htable⟩ := setDependencies_eq_ok hset
            have hne : id ≠ moduleId := fun heq ↦ hids.1
              (Assoc.lookup_inj hcreated hother (heq ▸ hlookup) ▸ mem_map_of_mem hd)
            rw [ih h hids.2 hd, edges_putDependencies hsome htable, if_neg hne]

end

/-! ### The edges of a release -/

/-- The dependencies of every created module are the created modules that its `depends_on` names. -/
def EdgesExact (defs : List ModuleDef) (created : List (String × Nat)) (s : ReleaseTable) : Prop :=
  ∀ d ∈ defs, ∀ id ∈ created.lookup d.id, s.edges id = (dependencyIds created d).toFinset

def EntriesAgree (defs : List ModuleDef) (created : List (String × Nat)) (s : ReleaseTable)
    (u : ModuleUpdate) : Prop :=
  ∀ d ∈ defs, ∀ id ∈ created.lookup d.id, ∀ deps ∈ reassigned s u id,
    deps.toFinset = (dependencyIds created d).toFinset

def NothingDetectedOnAdd (catalog : List LibraryModule) (release projectId : Nat)
    (defs : List ModuleDef) (s : ReleaseTable) : Prop :=
  let plan := planned catalog release projectId s.table.nextId defs
  NothingDetected (plan.map fun p ↦ p.1.id) (s.table.ofProject projectId) plan

section

variable {limit : Nat} {set : SetOrder} {catalog : List LibraryModule}
  {refused : ModuleDef → Option String} {release projectId : Nat} {s t : ReleaseTable}
  {created : List (String × Nat)} {defs : List ModuleDef}

theorem edgesExact_updateStep {u : ModuleUpdate} (h : EdgesExact defs created s)
    (hst : updateStep limit set s u = some t) :
    EdgesExact defs created t ↔ EntriesAgree defs created s u := by
  cases hst
  refine forall₂_congr fun d hd ↦ forall₂_congr fun id hid ↦ ?_
  rw [edges_updateModule, h d hd id hid]
  cases reassigned s u id with
  | none => exact iff_of_true rfl nofun
  | some deps =>
    simp only [Option.elim_some, Option.mem_some_iff, forall_eq']

theorem createReleaseModules_eq_ok
    (h : createReleaseModules limit set catalog refused release projectId defs s = .ok (t, created)) :
    ∃ (added : ReleaseTable) (wired : ReleaseTable),
      addReleaseModules catalog refused release projectId (orderOffset s projectId) s [] defs =
        .ok (added, created) ∧
      setReleaseDependencies limit created added defs = .ok wired ∧
      wired.calculateDeploymentOrder limit set projectId true = (t, none) := by
  unfold createReleaseModules at h
  split at h
  · cases h
  · next hadd =>
    split at h
    · cases h
    · next hset =>
      split at h
      · cases h
      · next hcalculate =>
        cases h
        exact ⟨_, _, hadd, hset, hcalculate⟩

theorem edgesExact_create_iff (hids : (defs.map ModuleDef.id).Nodup)
    (h : createReleaseModules limit set catalog refused release projectId defs s = .ok (t, created)) :
    EdgesExact defs created t ↔ NothingDetectedOnAdd catalog release projectId defs s := by
  obtain ⟨added, wired, hadd, hset, hcalculate⟩ := createReleaseModules_eq_ok h
  obtain ⟨hcreated, -, hiff⟩ := addReleaseModules_eq_ok hadd
  rw [append_nil] at hcreated
  have hkeys : created.map Prod.fst =
      ((planned catalog release projectId s.table.nextId defs).map fun p ↦ p.1.id).reverse := by
    rw [hcreated, map_reverse, map_map]
    rfl
  have hnodup : (created.map Prod.fst).Nodup := by
    rw [hkeys, nodup_reverse]
    exact planned_ids_nodup hids _
  have hvalues : (created.map Prod.snd).Nodup := by
    rw [hcreated, map_reverse, nodup_reverse, map_map]
    exact planned_nodup _
  have hlookup : ∀ k id, created.lookup k = some id ↔
      ∃ p ∈ planned catalog release projectId s.table.nextId defs, (p.1.id, p.2.id) = (k, id) := by
    intro k id
    rw [Assoc.lookup_eq_some_iff_mem hnodup, hcreated, mem_reverse, mem_map]
  have hnone : ∀ d : ModuleDef, dependencyIds created d = [] ↔ ∀ dep ∈ d.dependsOn,
      dep ∉ (planned catalog release projectId s.table.nextId defs).map fun p ↦ p.1.id := by
    intro d
    rw [dependencyIds, filterMap_eq_nil_iff]
    refine forall₂_congr fun dep _ ↦ ?_
    rw [Assoc.lookup_eq_none_iff, hkeys, mem_reverse]
  rw [NothingDetectedOnAdd, hiff _ _ rfl]
  constructor
  · intro hexact p hp hempty
    have hfound := (hlookup _ _).mpr ⟨p, hp, rfl⟩
    have hd : p.1 ∈ defs := (planned_sublist _ _ _ _ _).subset (mem_map_of_mem hp)
    have hedges := edges_setReleaseDependencies hset hids hvalues hd hfound
    rw [if_pos ((hnone _).mpr hempty)] at hedges
    rw [← hedges, ← (calculate_existing hcalculate).1, hexact _ hd _ hfound,
      (hnone _).mpr hempty, toFinset_nil]
  · intro hnothing d hd id hfound
    rw [(calculate_existing hcalculate).1, edges_setReleaseDependencies hset hids hvalues hd hfound]
    split
    · next hempty =>
      obtain ⟨p, hp, heq⟩ := (hlookup _ _).mp hfound
      obtain ⟨hid, rfl⟩ := Prod.mk.inj heq
      have hdef : p.1 ∈ defs := (planned_sublist _ _ _ _ _).subset (mem_map_of_mem hp)
      cases inj_on_of_nodup_map hids hdef hd hid
      rw [hnothing p hp ((hnone _).mp hempty), hempty, toFinset_nil]
    · rfl

/-- The release has the edges of its manifest and keeps them over its updates, in an order that follows
them, if and only if nothing is detected while they are added for modules that depend on no created
one, and the entries agree with the manifest wherever an update enables a module. -/
theorem release_edges_kept_iff (hids : (defs.map ModuleDef.id).Nodup)
    (h : createReleaseModules limit set catalog refused release projectId defs s = .ok (t, created))
    {us : List ModuleUpdate} {u : ReleaseTable} (hrun : Run (updateStep limit set) Free t us u) :
    OrderFollows projectId t ∧ Throughout (updateStep limit set) (EdgesExact defs created) t us ↔
      NothingDetectedOnAdd catalog release projectId defs s ∧
        Run (updateStep limit set) (EntriesAgree defs created) t us u := by
  obtain ⟨added, wired, -, -, hcalculate⟩ := createReleaseModules_eq_ok h
  rw [and_iff_right (calculate_existing hcalculate).2, ← edgesExact_create_iff hids h]
  by_cases hexact : EdgesExact defs created t
  · rw [and_iff_right hexact]
    exact hrun.throughout_iff hexact fun _ _ _ ↦ edgesExact_updateStep
  · exact iff_of_false (fun hall ↦ hexact hall.1) fun hall ↦ hexact hall.1

end

instance (defs : List ModuleDef) (created : List (String × Nat)) (s : ReleaseTable) (u : ModuleUpdate) :
    Decidable (EntriesAgree defs created s u) :=
  inferInstanceAs (Decidable (∀ d ∈ defs, ∀ id ∈ created.lookup d.id, ∀ deps ∈ reassigned s u id,
    deps.toFinset = (dependencyIds created d).toFinset))

instance decidableNothingDetected (ids : List String) (rows : List ProjectRow) :
    (plan : List (ModuleDef × ProjectRow)) → Decidable (NothingDetected ids rows plan)
  | [] => isTrue trivial
  | (d, m) :: plan =>
    have := decidableNothingDetected ids (rows ++ [m]) plan
    inferInstanceAs (Decidable (((∀ dep ∈ d.dependsOn, dep ∉ ids) →
      ∀ entry ∈ m.library, detectModuleDependencies entry rows = .ok []) ∧
      NothingDetected ids (rows ++ [m]) plan))

instance (catalog : List LibraryModule) (release projectId : Nat) (defs : List ModuleDef)
    (s : ReleaseTable) : Decidable (NothingDetectedOnAdd catalog release projectId defs s) :=
  decidableNothingDetected _ _ _

/-- Ids and paths are unique, and `depends_on` leads around no cycle. -/
structure ManifestWellFormed (defs : List ModuleDef) : Prop where
  ids : (defs.map ModuleDef.id).Nodup
  paths : (defs.map ModuleDef.moduleRef).Nodup
  acyclic : ∀ id, ¬ Relation.TransGen (fun a b ↦ ∃ d ∈ defs, d.id = a ∧ b ∈ d.dependsOn) id id

/-- A catalog of two modules without metadata, of which the second has names of dependencies. -/
def pairCatalog (names : List String) : List LibraryModule :=
  [⟨⟨"alpha", "infra/alpha", none⟩, 1, none, true, true, none, []⟩,
    ⟨⟨"beta", "infra/beta", none⟩, 2, none, true, true, none, names⟩]

/-- The second module is optional and depends on the first. -/
def pairManifest : List ModuleDef :=
  [⟨"a", "infra/alpha", none, false, []⟩, ⟨"b", "infra/beta", none, true, ["a"]⟩]

def emptyReleaseTable : ReleaseTable := ⟨emptyProject, fun _ ↦ false, fun _ ↦ []⟩

def listOrder : SetOrder := ⟨List.dedup, fun _ ↦ .refl _⟩

def createPair (names : List String) : Except ReleaseError (ReleaseTable × List (String × Nat)) :=
  createReleaseModules 1000 listOrder (pairCatalog names) (fun _ ↦ none) 7 1 pairManifest
    emptyReleaseTable

def enableBeta : ModuleUpdate := ⟨2, none, none, some true⟩

theorem pairManifest_wellFormed : ManifestWellFormed pairManifest where
  ids := by decide +kernel
  paths := by decide +kernel
  acyclic id := by
    refine Rank.not_transGen_self (fun id ↦ if id = "b" then 1 else 0) (P := fun _ ↦ True)
      (fun _ _ _ _ ↦ trivial) (fun x y _ h ↦ ?_) trivial
    obtain ⟨d, hd, rfl, hy⟩ := h
    rcases mem_pair.mp hd with rfl | rfl
    · cases hy
    · cases mem_singleton.mp hy
      decide

/-- The names of the second entry are those of the manifest, and it is enabled. -/
theorem pair_edges_kept :
    ∃ t created u, createPair ["alpha"] = .ok (t, created) ∧
      Run (updateStep 1000 listOrder) Free t [enableBeta] u ∧
      OrderFollows 1 t ∧
      Throughout (updateStep 1000 listOrder) (EdgesExact pairManifest created) t [enableBeta] := by
  obtain ⟨⟨t, created⟩, hcreate, hagree⟩ := ExceptResult.exists_of_any (x := createPair ["alpha"])
    (p := fun r ↦ decide (EntriesAgree pairManifest r.2 r.1 enableBeta)) (by decide +kernel)
  have hrun : Run (updateStep 1000 listOrder) (EntriesAgree pairManifest created) t [enableBeta]
      (updateModule 1000 listOrder t enableBeta).1 := .single (of_decide_eq_true hagree) rfl
  exact ⟨t, created, _, hcreate, hrun.free, (release_edges_kept_iff pairManifest_wellFormed.ids hcreate
    hrun.free).mpr ⟨by decide +kernel, hrun⟩⟩

/-- The second entry has no names, and the edge of the manifest is lost when it is enabled. -/
theorem pair_edge_lost :
    (∃ t created u, createPair [] = .ok (t, created) ∧
      Run (updateStep 1000 listOrder) Free t [enableBeta] u ∧ created.lookup "b" = some 2 ∧
      t.edges 2 = {1} ∧ u.edges 2 = ∅) ∧
    ¬ ∀ (limit : Nat) (set : SetOrder) (catalog : List LibraryModule)
      (refused : ModuleDef → Option String) (release projectId : Nat) (defs : List ModuleDef)
      (s t : ReleaseTable) (created : List (String × Nat)) (us : List ModuleUpdate) (u : ReleaseTable),
      ManifestWellFormed defs →
      createReleaseModules limit set catalog refused release projectId defs s = .ok (t, created) →
      Run (updateStep limit set) Free t us u →
      OrderFollows projectId t ∧ Throughout (updateStep limit set) (EdgesExact defs created) t us := by
  obtain ⟨⟨t, created⟩, hcreate, hcheck⟩ := ExceptResult.exists_of_any (x := createPair [])
    (p := fun r ↦ decide (r.2.lookup "b" = some 2 ∧ r.1.edges 2 = {1} ∧
      (updateModule 1000 listOrder r.1 enableBeta).1.edges 2 = ∅)) (by decide +kernel)
  obtain ⟨hlookup, hedges, hlost⟩ := of_decide_eq_true hcheck
  have hrun : Run (updateStep 1000 listOrder) Free t [enableBeta]
      (updateModule 1000 listOrder t enableBeta).1 := .single trivial rfl
  refine ⟨⟨t, created, _, hcreate, hrun, hlookup, hedges, hlost⟩, fun h ↦ ?_⟩
  obtain ⟨-, hexact, hall⟩ := h _ _ _ _ _ _ _ _ t created _ _ pairManifest_wellFormed hcreate hrun
  have hd : (⟨"b", "infra/beta", none, true, ["a"]⟩ : ModuleDef) ∈ pairManifest :=
    List.mem_cons_of_mem _ (List.mem_singleton_self _)
  have hbefore := hexact _ hd 2 hlookup
  have hafter := (hall _ rfl).1 _ hd 2 hlookup
  rw [← hbefore, hedges, hlost] at hafter
  exact Finset.singleton_ne_empty 1 hafter.symm

end BnkForge.Blueprint
