import BnkForge.Blueprint.Release
import Mathlib.Data.Finset.Dedup

/-!
# What the calls do to dependencies and order

The dependencies of the modules after an update, and the order of the enabled modules after a
calculation.
-/

namespace BnkForge.Blueprint

open BnkForge.Dependencies BnkForge.Graph List

/-! ### Rows and dependencies -/

section

variable {s t : ReleaseTable} {f : ProjectRow → ProjectRow} {hid : ∀ m, (f m).id = m.id}
  {hproject : ∀ m, (f m).projectId = m.projectId} {id projectId : Nat}

theorem get?_mapRows : (s.mapRows f hid hproject).table.get? id = (s.table.get? id).map f :=
  Assoc.find?_map_of_eq (fun m ↦ congrArg (· == id) (hid m)) _

theorem ofProject_mapRows :
    (s.mapRows f hid hproject).table.ofProject projectId = (s.table.ofProject projectId).map f :=
  Assoc.filter_map_of_eq (fun m ↦ congrArg (· == projectId) (hproject m)) _

theorem enabledOf_mapRows :
    (s.mapRows f hid hproject).enabledOf projectId = (s.enabledOf projectId).map f := by
  unfold ReleaseTable.enabledOf
  rw [ofProject_mapRows]
  exact Assoc.filter_map_of_eq (p := fun m : ProjectRow ↦ s.enabled m.id)
    (fun m ↦ congrArg s.enabled (hid m)) _

theorem edges_mapRows (hid : ∀ m, (f m).id = m.id) (hproject : ∀ m, (f m).projectId = m.projectId)
    (hdeps : ∀ m, (f m).dependencies = m.dependencies) :
    (s.mapRows f hid hproject).edges id = s.edges id := by
  unfold ReleaseTable.edges
  rw [get?_mapRows]
  cases s.table.get? id with
  | none => rfl
  | some m => exact congrArg List.toFinset (hdeps m)

theorem edges_withDependencies {assigned : List (Nat × List Nat)}
    (hrows : ∀ p ∈ assigned, (s.table.get? p.1).isSome) :
    (s.mapRows (withDependencies assigned) withDependencies_id withDependencies_projectId).edges id =
      (assigned.lookup id).elim (s.edges id) List.toFinset := by
  unfold ReleaseTable.edges
  rw [get?_mapRows]
  cases hget : s.table.get? id with
  | none =>
    cases hlookup : assigned.lookup id with
    | none => rfl
    | some deps =>
      have hsome := hrows _ (Assoc.mem_of_lookup hlookup)
      rw [hget] at hsome
      cases hsome
  | some m =>
    simp only [Option.map_some, Option.elim_some, withDependencies]
    rw [(get?_eq_some hget).2]
    cases assigned.lookup id with
    | none => rfl
    | some deps => rfl

theorem enabledOf_nodup (s : ReleaseTable) (projectId : Nat) :
    ((s.enabledOf projectId).map ProjectRow.id).Nodup :=
  s.table.nodup.sublist ((filter_sublist.trans filter_sublist).map _)

end

/-! ### The order of a project -/

def OrderFollows (projectId : Nat) (s : ReleaseTable) : Prop :=
  ∀ m ∈ s.enabledOf projectId, ∀ m' ∈ s.enabledOf projectId, m'.id ∈ m.dependencies →
    m'.deploymentOrder < m.deploymentOrder

section

variable {s t : ReleaseTable} {limit : Nat} {set : SetOrder} {projectId : Nat}

theorem edges_sortProject (id : Nat) :
    (s.sortProject limit set projectId).1.edges id = s.edges id := by
  unfold ReleaseTable.sortProject
  dsimp only
  split
  · rfl
  · exact edges_mapRows withOrder_id withOrder_projectId withOrder_dependencies

theorem sortProject_orderFollows (h : s.sortProject limit set projectId = (t, none)) :
    OrderFollows projectId t := by
  unfold ReleaseTable.sortProject at h
  dsimp only at h
  split at h
  · cases (Prod.mk.inj h).2
  · next orders horders =>
    obtain ⟨rfl, -⟩ := Prod.mk.inj h
    have hnodup := enabledOf_nodup s projectId
    have hkeys : ((s.enabledOf projectId).map fun m ↦ (m.id, m.dependencies)).map Prod.fst =
        (s.enabledOf projectId).map ProjectRow.id := map_map
    intro a ha b hb hdep
    rw [enabledOf_mapRows] at ha hb
    obtain ⟨m, hm, rfl⟩ := mem_map.mp ha
    obtain ⟨m', hm', rfl⟩ := mem_map.mp hb
    obtain ⟨i, hi, hlt⟩ := calculateDeploymentOrder_lt (hkeys ▸ hnodup) horders
      (hkeys ▸ mem_map_of_mem hm)
    rw [neighbors, Assoc.lookup_map ProjectRow.id hnodup hm] at hlt
    obtain ⟨j, hj, hji⟩ := hlt m'.id hdep (hkeys ▸ mem_map_of_mem hm')
    simp only [withOrder, hi, hj, Option.map_some, Option.getD_some]
    exact Int.ofNat_lt.mpr hji

theorem calculate_existing (h : s.calculateDeploymentOrder limit set projectId true = (t, none)) :
    (∀ id, t.edges id = s.edges id) ∧ OrderFollows projectId t := by
  unfold ReleaseTable.calculateDeploymentOrder at h
  split at h
  · cases (Prod.mk.inj h).2
  · split at h
    · next hempty =>
      obtain ⟨rfl, -⟩ := Prod.mk.inj h
      refine ⟨fun _ ↦ rfl, fun m hm ↦ ?_⟩
      have hmem := (mem_filter.mp hm).1
      rw [hempty] at hmem
      cases hmem
    · rw [if_pos rfl] at h
      have hedges : ∀ id, (s.sortProject limit set projectId).1.edges id = s.edges id :=
        edges_sortProject
      rw [h] at hedges
      exact ⟨hedges, sortProject_orderFollows h⟩

end

/-! ### Updates -/

def reassigned (s : ReleaseTable) (u : ModuleUpdate) (id : Nat) : Option (List Nat) :=
  match s.table.get? u.moduleId with
  | none => none
  | some m =>
    if u.refused = none ∧ enablingModule s u m then
      let enabled := (s.changed u).enabledOf m.projectId
      (assignments s.names enabled enabled).1.lookup id
    else none

section

variable {s : ReleaseTable} {limit : Nat} {set : SetOrder} {u : ModuleUpdate} {m : ProjectRow}

theorem assignments_mem {names : Nat → List String} {rows ms : List ProjectRow} {p : Nat × List Nat}
    (h : p ∈ (assignments names rows ms).1) : ∃ m ∈ ms, m.id = p.1 := by
  induction ms with
  | nil => cases h
  | cons m ms ih =>
    unfold assignments at h
    split at h
    · exact (ih h).imp fun _ hm ↦ ⟨mem_cons_of_mem _ hm.1, hm.2⟩
    · split at h
      · cases h
      · rcases mem_cons.mp h with rfl | h
        · exact ⟨m, mem_cons_self, rfl⟩
        · exact (ih h).imp fun _ hm ↦ ⟨mem_cons_of_mem _ hm.1, hm.2⟩

theorem get?_isSome (hm : m ∈ s.table.modules) : (s.table.get? m.id).isSome :=
  find?_isSome.mpr ⟨m, hm, beq_self_eq_true _⟩

theorem edges_changed (id : Nat) : (s.changed u).edges id = s.edges id :=
  edges_mapRows withGivenOrder_id withGivenOrder_projectId withGivenOrder_dependencies

theorem edges_calculate_resolved (limit : Nat) (set : SetOrder) (hm : m ∈ s.table.modules) (id : Nat) :
    (s.calculateDeploymentOrder limit set m.projectId false).1.edges id =
      ((assignments s.names (s.enabledOf m.projectId) (s.enabledOf m.projectId)).1.lookup id).elim
        (s.edges id) List.toFinset := by
  have hne : s.table.ofProject m.projectId ≠ [] :=
    ne_nil_of_mem (mem_filter.mpr ⟨hm, beq_self_eq_true _⟩)
  have hrows : ∀ p ∈ (assignments s.names (s.enabledOf m.projectId) (s.enabledOf m.projectId)).1,
      (s.table.get? p.1).isSome := fun p hp ↦ by
    obtain ⟨r, hr, hid⟩ := assignments_mem hp
    exact hid ▸ get?_isSome (mem_filter.mp (mem_filter.mp hr).1).1
  unfold ReleaseTable.calculateDeploymentOrder
  rw [if_neg (not_not.mpr (s.table.projects_mem m hm)), if_neg hne, if_neg Bool.false_ne_true]
  dsimp only
  split
  · exact edges_withDependencies hrows
  · rw [edges_sortProject]
    exact edges_withDependencies hrows

theorem edges_updateModule (id : Nat) :
    (updateModule limit set s u).1.edges id = (reassigned s u id).elim (s.edges id) List.toFinset := by
  unfold updateModule reassigned
  cases hget : s.table.get? u.moduleId with
  | none => rfl
  | some m =>
    cases hrefused : u.refused with
    | some errors =>
      dsimp only
      rw [if_neg fun h ↦ Option.some_ne_none _ h.1]
      rfl
    | none =>
      dsimp only
      by_cases henabling : enablingModule s u m = true
      · rw [if_pos henabling, if_pos ⟨rfl, henabling⟩]
        obtain ⟨hm, -⟩ := get?_eq_some hget
        have hchanged : withGivenOrder u.moduleId u.deploymentOrder m ∈ (s.changed u).table.modules :=
          mem_map_of_mem hm
        have hcalculated := edges_calculate_resolved limit set hchanged id
        rw [withGivenOrder_projectId, edges_changed] at hcalculated
        exact hcalculated
      · rw [if_neg henabling, if_neg fun h ↦ henabling h.2]
        exact edges_changed id

end

end BnkForge.Blueprint
