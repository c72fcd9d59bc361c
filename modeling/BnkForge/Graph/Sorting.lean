import BnkForge.Graph.Cycles
import BnkForge.Graph.Order

/-!
# When modules can be sorted

`topological_sort` looks for cycles in the whole dependency map that it is given, entries of modules
that are not to be sorted included; `calculate_deployment_order` (`backend/utils/dependency_graph.py:200–231`)
gives it the entries of the modules that are to be sorted.
-/

namespace BnkForge.Graph

open List

/-- `dependencies[module['id']] = module.get('dependencies', [])`. -/
def assign (deps : DependencyMap) (m : Nat × List Nat) : DependencyMap :=
  if m.1 ∈ deps.map Prod.fst then deps.map fun e ↦ if e.1 = m.1 then m else e else deps ++ [m]

/-- The map that `calculate_deployment_order` makes of its modules. -/
def dependencyMap (modules : List (Nat × List Nat)) : DependencyMap := modules.foldl assign []

def InList (modules : List Nat) (deps : DependencyMap) (a b : Nat) : Prop :=
  a ∈ modules ∧ b ∈ modules ∧ b ∈ neighbors deps a

/-- Every module of the list once, behind its dependencies in the list. -/
structure Sorted (modules : List Nat) (deps : DependencyMap) (result : List Nat) : Prop where
  perm : result.Perm modules.dedup
  dependencies_first : ∀ n ∈ modules, ∀ x ∈ neighbors deps n, x ∈ modules →
    result.idxOf x < result.idxOf n

section

variable {deps : DependencyMap} {modules : List (Nat × List Nat)} {limit : Nat} {set : SetOrder}

/-! ### The map of a list of modules -/

theorem keys_assign (deps : DependencyMap) (m : Nat × List Nat) : (assign deps m).map Prod.fst =
    if m.1 ∈ deps.map Prod.fst then deps.map Prod.fst else deps.map Prod.fst ++ [m.1] := by
  unfold assign
  split
  · rw [map_map]
    refine map_congr_left fun e _ ↦ ?_
    rw [Function.comp_apply]
    split
    · next h => exact h.symm
    · rfl
  · rw [map_append, map_singleton]

theorem mem_keys_assign {m : Nat × List Nat} {x : Nat} :
    x ∈ (assign deps m).map Prod.fst ↔ x ∈ deps.map Prod.fst ∨ x = m.1 := by
  rw [keys_assign]
  split
  · next h => exact ⟨Or.inl, fun hx ↦ hx.elim id fun hx ↦ hx ▸ h⟩
  · rw [mem_append, mem_singleton]

theorem foldl_assign (hnodup : (deps.map Prod.fst).Nodup) :
    ((modules.foldl assign deps).map Prod.fst).Nodup ∧
      ∀ x, x ∈ (modules.foldl assign deps).map Prod.fst ↔
        x ∈ deps.map Prod.fst ∨ x ∈ modules.map Prod.fst := by
  induction modules generalizing deps with
  | nil => exact ⟨hnodup, fun x ↦ (or_iff_left not_mem_nil).symm⟩
  | cons m modules ih =>
    have hassign : ((assign deps m).map Prod.fst).Nodup := by
      rw [keys_assign]
      split
      · exact hnodup
      · next h => exact nodup_append.mpr ⟨hnodup, nodup_singleton _, fun x hx y hy hxy ↦
          h (mem_singleton.mp hy ▸ hxy ▸ hx)⟩
    obtain ⟨hkeys, hmem⟩ := ih hassign
    refine ⟨hkeys, fun x ↦ (hmem x).trans ?_⟩
    rw [mem_keys_assign, or_assoc, map_cons, mem_cons]

theorem nodup_dependencyMap (modules : List (Nat × List Nat)) :
    ((dependencyMap modules).map Prod.fst).Nodup := (@foldl_assign [] modules nodup_nil).1

theorem mem_dependencyMap {x : Nat} :
    x ∈ (dependencyMap modules).map Prod.fst ↔ x ∈ modules.map Prod.fst :=
  ((@foldl_assign [] modules nodup_nil).2 x).trans (or_iff_right not_mem_nil)

theorem length_dependencyMap_le (modules : List (Nat × List Nat)) :
    (dependencyMap modules).length ≤ modules.length := by
  have hle := (subperm_of_subset (nodup_dependencyMap modules) fun _ hx ↦
    mem_dependencyMap.mp hx).length_le
  rwa [length_map, length_map] at hle

/-! ### Cycles among the modules -/

theorem transGen_inList {ids : List Nat} (hkeys : ∀ x ∈ deps.map Prod.fst, x ∈ ids) {a b : Nat}
    (hb : b ∈ ids) (h : Relation.TransGen (Edge deps) a b) :
    Relation.TransGen (InList ids deps) a b := by
  induction h using Relation.TransGen.head_induction_on with
  | single hab => exact .single ⟨hkeys _ (mem_keys_of_edge hab), hb, hab⟩
  | head hac hcb ih =>
    obtain ⟨d, hcd, -⟩ := Relation.TransGen.head'_iff.mp hcb
    exact .head ⟨hkeys _ (mem_keys_of_edge hac), hkeys _ (mem_keys_of_edge hcd), hac⟩ ih

theorem cycleFree_iff_inList {ids : List Nat} (hkeys : ∀ x ∈ deps.map Prod.fst, x ∈ ids) :
    CycleFree deps ↔ ∀ x, ¬ Relation.TransGen (InList ids deps) x x := by
  refine forall_congr' fun x ↦ not_congr ⟨fun h ↦ ?_, Relation.TransGen.mono (fun _ _ hab ↦ hab.2.2) _ _⟩
  obtain ⟨y, hxy, -⟩ := Relation.TransGen.head'_iff.mp h
  exact transGen_inList hkeys (hkeys x (mem_keys_of_edge hxy)) h

/-! ### Sorting -/

theorem Sorted.congr {ids ids' result : List Nat} (hsame : ∀ x, x ∈ ids ↔ x ∈ ids')
    (h : Sorted ids deps result) : Sorted ids' deps result := by
  refine ⟨h.perm.trans ?_, fun n hn x hx hxm ↦
    h.dependencies_first n ((hsame n).mpr hn) x hx ((hsame x).mpr hxm)⟩
  refine (perm_ext_iff_of_nodup (nodup_dedup ids) (nodup_dedup ids')).mpr fun x ↦ ?_
  rw [mem_dedup, mem_dedup, hsame]

theorem sorted_of_topologicalSort {ids result : List Nat} (hnodup : (deps.map Prod.fst).Nodup)
    (h : topologicalSort limit set ids deps = .ok result) : Sorted ids deps result := by
  obtain ⟨hall, hfirst⟩ := topologicalSort_sorted hnodup h
  refine ⟨?_, hfirst⟩
  unfold topologicalSort at h
  split at h
  · cases h
  · cases h
  · dsimp only at h
    split at h
    · cases h
      obtain ⟨hinv, -⟩ := inv_sorted (nodup_order set ids) hnodup
      refine (perm_ext_iff_of_nodup (nodup_append.mp hinv.nodup).1 (nodup_dedup ids)).mpr
        fun n ↦ ⟨fun hn ↦ ?_, fun hn ↦ hall n (mem_dedup.mp hn)⟩
      exact mem_dedup.mpr (mem_order.mp ((hinv.mem n).mp (mem_append_left _ hn)).1)
    · cases h

theorem topologicalSort_ok_iff {ids : List Nat} (hnodup : (deps.map Prod.fst).Nodup)
    (hlimit : deps.length < limit) :
    (∃ result, topologicalSort limit set ids deps = .ok result) ↔ CycleFree deps := by
  rw [← ((detectCircularDependencies_exact limit deps).1 hlimit).1]
  constructor
  · rintro ⟨result, h⟩
    unfold topologicalSort at h
    split at h
    · cases h
    · cases h
    · assumption
  · exact topologicalSort_complete set ids hnodup

end

/-- A list of modules is sorted if and only if the dependency map has no cycle, and otherwise refused;
the list that `calculate_deployment_order` is given, if and only if its modules have none among
themselves. -/
theorem topologicalSort_exact (limit : Nat) (set : SetOrder) :
    (∀ (ids : List Nat) (deps : DependencyMap), (deps.map Prod.fst).Nodup → deps.length < limit →
      ((∃ result, topologicalSort limit set ids deps = .ok result) ↔ CycleFree deps) ∧
      ∀ result, topologicalSort limit set ids deps = .ok result → Sorted ids deps result) ∧
    ∀ modules : List (Nat × List Nat), modules.length < limit →
      ((∃ orders, calculateDeploymentOrder limit set (dependencyMap modules) = .ok orders) ↔
        ∀ x, ¬ Relation.TransGen (InList (modules.map Prod.fst) (dependencyMap modules)) x x) ∧
      ∀ orders, calculateDeploymentOrder limit set (dependencyMap modules) = .ok orders →
        ∃ result, orders = result.zipIdx ∧
          Sorted (modules.map Prod.fst) (dependencyMap modules) result := by
  refine ⟨fun ids deps hnodup hlimit ↦ ⟨topologicalSort_ok_iff hnodup hlimit, fun result ↦
    sorted_of_topologicalSort hnodup⟩, fun modules hlimit ↦ ?_⟩
  have hkeys := nodup_dependencyMap modules
  have hlimit' := lt_of_le_of_lt (length_dependencyMap_le modules) hlimit
  have hfree := cycleFree_iff_inList fun x ↦ (@mem_dependencyMap modules x).mp
  rw [← hfree, ← topologicalSort_ok_iff hkeys hlimit', calculateDeploymentOrder]
  cases hsort : topologicalSort limit set ((dependencyMap modules).map Prod.fst)
      (dependencyMap modules) with
  | error e => exact ⟨iff_of_false nofun nofun, nofun⟩
  | ok result =>
    refine ⟨iff_of_true ⟨_, rfl⟩ ⟨_, rfl⟩, ?_⟩
    rintro _ ⟨⟩
    exact ⟨result, rfl, (sorted_of_topologicalSort hkeys hsort).congr fun _ ↦ mem_dependencyMap⟩

/-- A dependency that is listed twice, and one that is not to be sorted. -/
theorem topologicalSort_exact_duplicate :
    Sorted [3, 2, 1] [(2, [1, 1, 9]), (3, [1, 2])] [1, 2, 3] ∧
      ∃ orders, calculateDeploymentOrder 1000 ⟨List.dedup, fun _ ↦ .refl _⟩
        (dependencyMap [(1, []), (2, [1, 1, 9]), (3, [1, 2])]) = .ok orders := by
  obtain ⟨hsort, horder⟩ := topologicalSort_exact 1000 ⟨List.dedup, fun _ ↦ .refl _⟩
  obtain ⟨-, hsorted⟩ := hsort [3, 2, 1] [(2, [1, 1, 9]), (3, [1, 2])] (by decide) (by decide)
  obtain ⟨hfree, -⟩ := horder [(1, []), (2, [1, 1, 9]), (3, [1, 2])] (by decide)
  exact ⟨hsorted [1, 2, 3] rfl, hfree.mpr (hfree.mp ⟨_, rfl⟩)⟩

/-- Two modules that are not to be sorted, and depend on each other. -/
theorem unlisted_cycle_refused :
    ¬ ∀ (limit : Nat) (set : SetOrder) (ids : List Nat) (deps : DependencyMap),
      (deps.map Prod.fst).Nodup → deps.length < limit →
      ((∃ result, topologicalSort limit set ids deps = .ok result) ↔
        ∀ x, ¬ Relation.TransGen (InList ids deps) x x) := by
  intro h
  obtain ⟨result, hresult⟩ := (h 1000 ⟨List.dedup, fun _ ↦ .refl _⟩ [1] [(2, [3]), (3, [2])] (by decide)
    (by decide)).mpr fun x hcycle ↦ by
      obtain ⟨y, ⟨hx, -, hxy⟩, -⟩ := Relation.TransGen.head'_iff.mp hcycle
      cases List.mem_singleton.mp hx
      cases hxy
  have hrefused : topologicalSort 1000 ⟨List.dedup, fun _ ↦ .refl _⟩ [1] [(2, [3]), (3, [2])] =
      .error (.circular [2, 3, 2]) := rfl
  cases hrefused.symm.trans hresult

end BnkForge.Graph
