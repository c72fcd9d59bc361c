import BnkForge.Graph.Dependencies
import BnkForge.Lib.Assoc
import BnkForge.Lib.Kahn
import Mathlib.Data.List.Dedup

/-!
# The deployment order

`topological_sort` and `calculate_deployment_order` (`backend/utils/dependency_graph.py:74–135,200–231`).
The order in which Python goes through a set of ids is a parameter.
-/

namespace BnkForge.Graph

open Kahn List

/-- The order in which a set is gone through: every id of the list it is made of, once. -/
structure SetOrder where
  order : List Nat → List Nat
  perm : ∀ ids, (order ids).Perm ids.dedup

inductive SortError
  | search (e : SearchError)
  /-- `Circular dependency detected: ...`. -/
  | circular (cycle : List Nat)
  /-- `Circular dependency detected during sort`. -/
  | circularDuringSort
  deriving DecidableEq, Repr

/-- `graph[dep_id]`: the modules with a dependency, once for each time that they list it. -/
def dependents (ids : List Nat) (deps : DependencyMap) (x : Nat) : List Nat :=
  if x ∈ ids then
    (deps.filter fun e ↦ e.1 ∈ ids).flatMap fun e ↦ (e.2.filter (· == x)).map fun _ ↦ e.1
  else []

/-- The dependencies of a module among the modules. -/
def within (ids : List Nat) (deps : DependencyMap) (n : Nat) : List Nat :=
  if n ∈ ids then (neighbors deps n).filter (· ∈ ids) else []

/-- What the loop of `topological_sort` leaves. -/
def sorted (ids : List Nat) (deps : DependencyMap) : State Nat :=
  let inDegree := fun n ↦ (within ids deps n).length
  drain (dependents ids deps) ids.length ⟨ids.filter (inDegree · = 0), inDegree, []⟩

/-- `topological_sort`. -/
def topologicalSort (limit : Nat) (set : SetOrder) (modules : List Nat) (deps : DependencyMap) :
    Except SortError (List Nat) :=
  match detectCircularDependencies limit deps with
  | .error e => .error (.search e)
  | .ok (some cycle) => .error (.circular cycle)
  | .ok none =>
    let ids := set.order modules
    if (sorted ids deps).result.length = ids.length then .ok (sorted ids deps).result
    else .error .circularDuringSort

/-- `calculate_deployment_order`: the ids with their orders. -/
def calculateDeploymentOrder (limit : Nat) (set : SetOrder) (deps : DependencyMap) :
    Except SortError (List (Nat × Nat)) :=
  (topologicalSort limit set (deps.map Prod.fst) deps).map List.zipIdx

section

variable {ids : List Nat} {deps : DependencyMap} {limit : Nat} {set : SetOrder}

theorem count_map_filter {n x m : Nat} {xs : List Nat} :
    ((xs.filter (· == x)).map fun _ ↦ m).count n = if m = n then xs.count x else 0 := by
  split
  · next hmn =>
    subst hmn
    rw [count_eq_length.mpr fun b hb ↦ ?_, length_map, ← countP_eq_length_filter]
    · rfl
    · obtain ⟨-, -, rfl⟩ := mem_map.mp hb
      rfl
  · next hmn =>
    refine count_eq_zero_of_not_mem fun hin ↦ ?_
    obtain ⟨-, -, rfl⟩ := mem_map.mp hin
    exact hmn rfl

theorem count_dependents (hnodup : (deps.map Prod.fst).Nodup) (x n : Nat) :
    (dependents ids deps x).count n = (within ids deps n).count x := by
  unfold dependents within
  by_cases hx : x ∈ ids
  · rw [if_pos hx]
    by_cases hn : n ∈ ids
    · rw [if_pos hn, count_filter (p := fun y ↦ decide (y ∈ ids)) (decide_eq_true hx), neighbors]
      induction deps with
      | nil => rfl
      | cons e deps ih =>
        rw [map_cons, nodup_cons] at hnodup
        have hrest := ih hnodup.2
        rcases eq_or_ne n e.1 with rfl | hne
        · have hnone : deps.lookup e.1 = none := Assoc.lookup_eq_none_iff.mpr hnodup.1
          rw [filter_cons_of_pos (p := fun e : Nat × List Nat ↦ decide (e.1 ∈ ids))
            (decide_eq_true hn), flatMap_cons, count_append, count_map_filter, if_pos rfl,
            hrest, hnone, lookup_cons_self]
          rfl
        · rw [lookup_cons, beq_false_of_ne hne]
          rw [← hrest]
          by_cases he : e.1 ∈ ids
          · rw [filter_cons_of_pos (p := fun e : Nat × List Nat ↦ decide (e.1 ∈ ids))
              (decide_eq_true he), flatMap_cons, count_append, count_map_filter,
              if_neg hne.symm, Nat.zero_add]
          · rw [filter_cons_of_neg (p := fun e : Nat × List Nat ↦ decide (e.1 ∈ ids))
              fun h ↦ he (of_decide_eq_true h)]
    · rw [if_neg hn, count_nil]
      refine count_eq_zero_of_not_mem fun hin ↦ ?_
      obtain ⟨e, he, hmap⟩ := mem_flatMap.mp hin
      obtain ⟨-, -, rfl⟩ := mem_map.mp hmap
      exact hn (of_decide_eq_true (mem_filter.mp he).2)
  · rw [if_neg hx, count_nil]
    symm
    refine count_eq_zero_of_not_mem fun hin ↦ ?_
    split at hin
    · exact hx (of_decide_eq_true (mem_filter.mp hin).2)
    · cases hin

/-- What `topological_sort` begins with. -/
theorem inv_start (deps : DependencyMap) (hids : ids.Nodup) : Inv ids (within ids deps)
    ⟨ids.filter (fun n ↦ (within ids deps n).length = 0), fun n ↦ (within ids deps n).length, []⟩ where
  nodup := hids.filter _
  degree n := by
    simp only [not_mem_nil, not_false_eq_true, decide_true, countP_true]
  mem n := by
    rw [nil_append, mem_filter, decide_eq_true_eq]
  ordered l n r h := by
    exact absurd h.symm (append_ne_nil_of_right_ne_nil _ (cons_ne_nil _ _))

theorem inv_sorted (hids : ids.Nodup) (hnodup : (deps.map Prod.fst).Nodup) :
    Inv ids (within ids deps) (sorted ids deps) ∧ (sorted ids deps).queue = [] :=
  have hout : ∀ n, n ∉ ids → within ids deps n = [] := fun _ hn ↦ if_neg hn
  ⟨(inv_start deps hids).drain (fun x _ ↦ count_dependents hnodup x) hout _,
    (inv_start deps hids).drain_queue rfl (fun x _ ↦ count_dependents hnodup x) hout⟩

/-- The sort emits the modules by level. -/
theorem leveled_sorted {level : Nat → Nat} (hids : ids.Nodup) (hnodup : (deps.map Prod.fst).Nodup)
    (hlevel : ∀ n ∈ ids, level n = Peeling.above level (within ids deps n)) :
    Leveled level (sorted ids deps) := by
  have hzero : ∀ n ∈ ids.filter fun n ↦ (within ids deps n).length = 0, level n = 0 := by
    intro n hn
    obtain ⟨hn, hlength⟩ := mem_filter.mp hn
    rw [hlevel n hn, length_eq_zero_iff.mp (of_decide_eq_true hlength)]
    rfl
  refine Leveled.drain ⟨?_, ?_⟩ (inv_start deps hids) (fun x _ ↦ count_dependents hnodup x)
    (fun _ hn ↦ if_neg hn) hlevel _
  · exact pairwise_of_forall_mem_list fun m hm n hn ↦ by rw [hzero m hm, hzero n hn]
  · intro m hm n hn
    rw [hzero n hn]
    exact Nat.zero_le _

theorem nodup_order (set : SetOrder) (modules : List Nat) : (set.order modules).Nodup :=
  (set.perm modules).nodup_iff.mpr (nodup_dedup modules)

theorem mem_order {modules : List Nat} {n : Nat} : n ∈ set.order modules ↔ n ∈ modules :=
  (set.perm modules).mem_iff.trans mem_dedup

theorem topologicalSort_sorted {modules result : List Nat} (hnodup : (deps.map Prod.fst).Nodup)
    (h : topologicalSort limit set modules deps = .ok result) :
    (∀ n ∈ modules, n ∈ result) ∧ ∀ n ∈ modules, ∀ x ∈ neighbors deps n, x ∈ modules →
      result.idxOf x < result.idxOf n := by
  unfold topologicalSort at h
  split at h
  · cases h
  · cases h
  · dsimp only at h
    split at h
    · next hlength =>
      cases h
      obtain ⟨hinv, -⟩ := inv_sorted (nodup_order set modules) hnodup
      have hall := (subperm_of_subset (nodup_append.mp hinv.nodup).1 fun n hn ↦
        ((hinv.mem n).mp (mem_append_left _ hn)).1).perm_of_length_le hlength.ge
      have hin : ∀ n ∈ modules, n ∈ (sorted (set.order modules) deps).result := fun n hn ↦
        hall.mem_iff.mpr (mem_order.mpr hn)
      refine ⟨hin, fun n hn x hx hxm ↦ hinv.idxOf_lt (hin n hn) ?_⟩
      rw [within, if_pos (mem_order.mpr hn)]
      exact mem_filter.mpr ⟨hx, decide_eq_true (mem_order.mpr hxm)⟩
    · cases h

theorem topologicalSort_complete (set : SetOrder) (modules : List Nat)
    (hnodup : (deps.map Prod.fst).Nodup) (hdetect : detectCircularDependencies limit deps = .ok none) :
    ∃ result, topologicalSort limit set modules deps = .ok result := by
  obtain ⟨rank, hrank⟩ := rank_of_detect hdetect
  obtain ⟨hinv, hqueue⟩ := inv_sorted (nodup_order set modules) hnodup
  have hlower : ∀ n, ∀ x ∈ within (set.order modules) deps n,
      x ∈ set.order modules ∧ rank x < rank n := by
    intro n x hx
    unfold within at hx
    split at hx
    · obtain ⟨hx, hin⟩ := mem_filter.mp hx
      exact ⟨of_decide_eq_true hin, hrank n x hx⟩
    · cases hx
  have hlength : (sorted (set.order modules) deps).result.length = (set.order modules).length := by
    have hnodup' := (nodup_append.mp hinv.nodup).1
    refine Nat.le_antisymm (subperm_of_subset hnodup' fun n hn ↦ ?_).length_le
      (subperm_of_subset (nodup_order set modules) fun n hn ↦ ?_).length_le
    · exact ((hinv.mem n).mp (mem_append_left _ hn)).1
    · exact hinv.mem_result hqueue hlower hn
  refine ⟨(sorted (set.order modules) deps).result, ?_⟩
  rw [topologicalSort, hdetect]
  exact if_pos hlength

theorem lookup_zipIdx {xs : List Nat} {n : Nat} (h : n ∈ xs) (k : Nat) :
    (xs.zipIdx k).lookup n = some (k + xs.idxOf n) := by
  induction xs generalizing k with
  | nil => cases h
  | cons x xs ih =>
    rw [zipIdx_cons, lookup_cons]
    rcases eq_or_ne n x with rfl | hne
    · rw [beq_self_eq_true, idxOf_cons_self]
      rfl
    · rw [beq_false_of_ne hne, idxOf_cons_ne _ hne.symm]
      dsimp only
      rw [ih ((mem_cons.mp h).resolve_left hne)]
      congr 1
      omega

theorem calculateDeploymentOrder_lt {orders : List (Nat × Nat)} (hnodup : (deps.map Prod.fst).Nodup)
    (h : calculateDeploymentOrder limit set deps = .ok orders) {n : Nat} (hn : n ∈ deps.map Prod.fst) :
    ∃ i, orders.lookup n = some i ∧ ∀ x ∈ neighbors deps n, x ∈ deps.map Prod.fst →
      ∃ j, orders.lookup x = some j ∧ j < i := by
  unfold calculateDeploymentOrder at h
  cases hsort : topologicalSort limit set (deps.map Prod.fst) deps with
  | error e =>
    rw [hsort] at h
    cases h
  | ok result =>
    rw [hsort] at h
    cases h
    obtain ⟨hall, hlt⟩ := topologicalSort_sorted hnodup hsort
    refine ⟨_, lookup_zipIdx (hall n hn) 0, fun x hx hxm ↦ ⟨_, lookup_zipIdx (hall x hxm) 0, ?_⟩⟩
    exact Nat.add_lt_add_left (hlt n hn x hx hxm) 0

end

end BnkForge.Graph
