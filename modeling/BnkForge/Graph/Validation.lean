import BnkForge.Graph.Canonical
import BnkForge.Lib.Kahn

/-!
# The report of cycles

`validate_no_cycles` (`backend/services/dependency_graph_service.py:214–270`) layers all modules of a
project, enabled or not, and where that fails peels them once more, to name those in cycles.
-/

namespace BnkForge.Graph

open Peeling List

/-- The modules that have one dependency less when a module is taken from the queue: those that list
it, however often. -/
def listing (ms : List GraphModule) (mid : Nat) : List Nat :=
  (ms.filter fun m ↦ m.dependencies.contains mid).map GraphModule.id

/-- What the queue of the report leaves. The counts do not fall below zero: a module is counted at
least once for every dependency that is taken from the queue. -/
def peeled (ms : List GraphModule) : Kahn.State Nat :=
  Kahn.drain (listing ms) ms.length
    ⟨(moduleIds ms).filter fun mid ↦ inDegree ms mid = 0, inDegree ms, []⟩

/-- `validate_no_cycles`. -/
def validateNoCycles (ms : List GraphModule) : Bool × Option (List Nat) :=
  match kahnLayers ms with
  | .ok _ => (true, none)
  | .error _ => (false, some ((moduleIds ms).filter fun mid ↦ 0 < (peeled ms).inDegree mid))

def reported (ms : List GraphModule) : List Nat := (validateNoCycles ms).2.getD []

def unplaced (ms : List GraphModule) : List Nat :=
  (moduleIds ms).filter fun mid ↦ mid ∉ (placedLayers ms).flatten

section

variable {ms : List GraphModule} {x : Nat}

theorem inDegree_eq (ms : List GraphModule) (x : Nat) : inDegree ms x = (inSet ms x).length := by
  unfold inDegree inSet
  cases ms.find? fun m ↦ m.id == x with
  | none => rfl
  | some m => exact countP_eq_length_filter

theorem inSet_eq_nil (h : x ∉ moduleIds ms) : inSet ms x = [] :=
  eq_nil_iff_forall_not_mem.mpr fun _ hd ↦ h (mem_ids_of_mem_inSet hd).2

theorem count_listing (hnodup : (moduleIds ms).Nodup) (hlists : ∀ m ∈ ms, m.dependencies.Nodup)
    (hx : x ∈ moduleIds ms) (n : Nat) : (listing ms x).count n = (inSet ms n).count x := by
  have hlisting : (listing ms x).Nodup := hnodup.sublist (filter_sublist.map _)
  by_cases hn : n ∈ moduleIds ms
  · obtain ⟨m, hm, rfl⟩ := mem_map.mp hn
    have hset : (inSet ms m.id).Nodup := by
      rw [inSet, find_eq hnodup hm]
      exact (hlists m hm).filter _
    have hiff : m.id ∈ listing ms x ↔ x ∈ inSet ms m.id := by
      rw [mem_inSet_iff hnodup hm, and_iff_left hx, listing, mem_map]
      constructor
      · rintro ⟨m', hm', hid⟩
        rw [mem_filter, contains_eq_mem, decide_eq_true_eq] at hm'
        exact inj_on_of_nodup_map hnodup hm'.1 hm hid ▸ hm'.2
      · exact fun hd ↦ ⟨m, mem_filter.mpr ⟨hm, by simpa using hd⟩, rfl⟩
    rw [hlisting.count, hset.count]
    exact if_congr hiff rfl rfl
  · rw [inSet_eq_nil hn, count_nil, count_eq_zero]
    exact fun hin ↦ hn (filter_sublist.map _ |>.subset hin)

theorem inv_seeded (hnodup : (moduleIds ms).Nodup) : Kahn.Inv (moduleIds ms) (inSet ms)
    ⟨(moduleIds ms).filter fun mid ↦ inDegree ms mid = 0, inDegree ms, []⟩ where
  nodup := hnodup.filter _
  degree n := by
    simp only [inDegree_eq, not_mem_nil, not_false_eq_true, decide_true, countP_true]
  mem n := by
    rw [nil_append, mem_filter, decide_eq_true_eq]
  ordered l n r h := absurd h.symm (append_ne_nil_of_right_ne_nil _ (cons_ne_nil _ _))

theorem mem_peeled_iff (hnodup : (moduleIds ms).Nodup) (hlists : ∀ m ∈ ms, m.dependencies.Nodup)
    (hx : x ∈ moduleIds ms) : 0 < (peeled ms).inDegree x ↔ x ∉ (placedLayers ms).flatten := by
  have hgraph : ∀ y ∈ moduleIds ms, ∀ n, (listing ms y).count n = (inSet ms n).count y := fun y hy ↦
    count_listing hnodup hlists hy
  have hout : ∀ n, n ∉ moduleIds ms → inSet ms n = [] := fun n ↦ inSet_eq_nil
  have hlength : (moduleIds ms).length = ms.length := length_map ..
  have hinv : Kahn.Inv (moduleIds ms) (inSet ms) (peeled ms) := (inv_seeded hnodup).drain hgraph hout _
  have hqueue : (peeled ms).queue = [] := by
    have := (inv_seeded hnodup).drain_queue rfl hgraph hout
    rwa [hlength] at this
  have hresult : x ∈ (peeled ms).result ↔ x ∈ moduleIds ms ∧ Acc (Below (inSet ms)) x :=
    hinv.mem_result_iff hqueue fun n _ d hd ↦ (mem_ids_of_mem_inSet hd).1
  have hzero := hinv.mem x
  rw [hqueue, append_nil, hresult, and_iff_right hx] at hzero
  rw [mem_placed_iff hnodup, hzero, Nat.pos_iff_ne_zero, and_iff_right hx, and_iff_right hx]

theorem kahnLayers_filter_ok (hnodup : (moduleIds ms).Nodup) (p : GraphModule → Bool)
    (h : ∃ layers, kahnLayers ms = .ok layers) : ∃ layers, kahnLayers (ms.filter p) = .ok layers := by
  have hsub : (moduleIds (ms.filter p)).Nodup := hnodup.sublist (filter_sublist.map _)
  rw [kahnLayers_ok_iff hnodup] at h
  rw [kahnLayers_ok_iff hsub]
  refine fun y hcycle ↦ h y (Relation.TransGen.mono (fun d z hd ↦ ?_) _ _ hcycle)
  obtain ⟨hids, hz⟩ := mem_ids_of_mem_inSet hd
  obtain ⟨m, hm, rfl⟩ := mem_map.mp hz
  obtain ⟨hdep, hin⟩ := (mem_inSet_iff hsub hm).mp hd
  exact (mem_inSet_iff hnodup (mem_of_mem_filter hm)).mpr
    ⟨hdep, (filter_sublist.map GraphModule.id).subset hin⟩

end

/-- The check succeeds if and only if all modules of the project can be layered, and then the enabled
ones can; where no list names a module twice, it reports the modules that cannot be placed. -/
theorem validateNoCycles_agrees (ms : List GraphModule) (hnodup : (moduleIds ms).Nodup) :
    ((∀ m ∈ ms, m.dependencies.Nodup) → reported ms = unplaced ms) ∧
    ((validateNoCycles ms).1 = true ↔ ∃ layers, kahnLayers ms = .ok layers) ∧
    ((validateNoCycles ms).1 = true → ∃ layers, buildLayers ms = .ok layers) := by
  have hok : (validateNoCycles ms).1 = true ↔ ∃ layers, kahnLayers ms = .ok layers := by
    unfold validateNoCycles
    cases kahnLayers ms with
    | ok layers => exact iff_of_true rfl ⟨layers, rfl⟩
    | error e => exact iff_of_false nofun nofun
  refine ⟨fun hlists ↦ ?_, hok, fun h ↦ kahnLayers_filter_ok hnodup _ (hok.mp h)⟩
  unfold reported validateNoCycles unplaced
  cases hlayers : kahnLayers ms with
  | ok layers =>
    obtain ⟨rfl, hperm⟩ := (kahnLayers_eq_ok_iff hnodup).mp hlayers
    refine (List.filter_eq_nil_iff.mpr fun x hx ↦ ?_).symm
    rw [decide_eq_true_eq, not_not]
    exact hperm.mem_iff.mpr hx
  | error e =>
    refine List.filter_congr fun x hx ↦ decide_eq_decide.mpr ?_
    exact mem_peeled_iff hnodup hlists hx

/-- Two modules that depend on each other, one that depends on them, and one that does not. -/
def cyclicProject : List GraphModule :=
  [⟨1, [2], true, none⟩, ⟨2, [1], true, none⟩, ⟨3, [2, 4], true, none⟩, ⟨4, [9], true, none⟩]

theorem cyclicProject_reported : reported cyclicProject = [1, 2, 3] ∧
    reported cyclicProject = unplaced cyclicProject :=
  ⟨by decide, (validateNoCycles_agrees cyclicProject (by decide)).1 (by decide)⟩

/-- Two disabled modules that depend on each other are reported, and not scheduled. -/
theorem disabled_cycle_reported :
    ¬ ∀ ms : List GraphModule, (moduleIds ms).Nodup →
      (∀ x, x ∈ reported ms ↔ x ∈ unplaced ms) ∧
      ((validateNoCycles ms).1 = true ↔ ∃ layers, buildLayers ms = .ok layers) := by
  intro h
  have hsame := (h [⟨1, [2], false, none⟩, ⟨2, [1], false, none⟩] (by decide)).2
  have hbuilt : buildLayers [⟨1, [2], false, none⟩, ⟨2, [1], false, none⟩] = .ok [] := rfl
  exact absurd (hsame.mpr ⟨[], hbuilt⟩) (by decide)

end BnkForge.Graph
